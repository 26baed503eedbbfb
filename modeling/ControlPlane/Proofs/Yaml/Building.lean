import ControlPlane.Proofs.Yaml.Parsing

/-! # Data of outlines

From the events of an outline a node is built, and reading the node gives the data of the outline
(`builds_outline`): words are texts whether they have quotes or not, and no name of a record stands
twice.  A stream of outlines gives a source for each of them (`datum_stream`). -/

namespace ControlPlane.Yaml

open Document (fieldEvents entries)

/-! ### Words without quotes -/

namespace Scalar

/-- The only text that a scalar can mean is its own. -/
theorem eq_of_meaning {text value : String} (h : meaning text = .datum (.text value)) :
    value = text := by
  unfold meaning at h
  dsimp only at h
  split at h
  · cases h
  · split at h
    · cases h
    · split at h
      · rename_i hinteger
        obtain ⟨n, -, hsized⟩ := Option.bind_eq_some_iff.1 hinteger
        rw [h] at hsized
        unfold sized? at hsized
        split_ifs at hsized <;> cases hsized
      · split at h
        · cases h
          rfl
        · split at h
          · cases h
          · cases h
            rfl

theorem meaning_of_isPlainText {text : String} (h : isPlainText text = true) :
    meaning text = .datum (.text text) := by
  unfold isPlainText at h
  split at h
  · rename_i value hmeaning
    rw [hmeaning, eq_of_meaning hmeaning]
  · cases h

end Scalar

namespace Node

/-! ### Reading -/

/-- The node has this datum, in whatever source it stands, and no alias is followed. -/
def ReadsAs (depth : ℕ) (node : Node) (datum : Datum) : Prop :=
  ∀ (s : Source) (count : ℕ), (s.read depth node).run count = .ok (datum, count)

theorem readsAs_scalar {depth : ℕ} {text : String} {isPlain : Bool} {place : Place}
    (h : isPlain = true → Scalar.isPlainText text = true) :
    ReadsAs depth (.scalar none text isPlain place) (.text text) := by
  have hdatum : scalarDatum none text isPlain place = .ok (.text text) := by
    cases isPlain with
    | false => rfl
    | true =>
        show datumOf place (Scalar.meaning text) = _
        rw [Scalar.meaning_of_isPlainText (h rfl)]
        rfl
  intro s count
  unfold Source.read
  simp [Source.follow, Source.tagged, customTag?, hdatum]

theorem readsAs_emptySequence {depth : ℕ} {place : Place} :
    ReadsAs (depth + 1) (.sequence none [] place) (.list []) := by
  intro s count
  unfold Source.read
  rfl

/-- The nodes of fields: their names and values are read, and no name is taken for another. -/
def ReadsEntries (depth : ℕ) (fields : List (String × Document)) (nodes : List (Node × Node)) :
    Prop :=
  ∀ (s : Source) (count : ℕ) (place : Place) (before : List (Datum × Datum)),
    (∀ f ∈ fields, ∀ e ∈ before, Datum.same e.1 (.text f.1) = false) →
    (Source.readEntries (s.read depth) place before nodes).run count
      = .ok (before.reverse ++ entries fields, count)

theorem readsEntries_nil {depth : ℕ} : ReadsEntries depth [] [] := by
  intro s count place before hbefore
  rw [entries, List.append_nil]
  rfl

theorem readsEntries_cons {depth : ℕ} {name : String} {value : Document}
    {fields : List (String × Document)} {key node : Node} {nodes : List (Node × Node)}
    (hkey : ReadsAs depth key (.text name)) (hvalue : ReadsAs depth node value.datum)
    (hname : ∀ f ∈ fields, name ≠ f.1) (hrest : ReadsEntries depth fields nodes) :
    ReadsEntries depth ((name, value) :: fields) ((key, node) :: nodes) := by
  intro s count place before hbefore
  have hnew : (before.any fun e => Datum.same e.1 (.text name)) = false := by
    rw [List.any_eq_false]
    intro e he
    rw [hbefore _ List.mem_cons_self e he]
    decide
  have hnext := hrest s count place ((.text name, value.datum) :: before) (by
    intro f hf e he
    rcases List.mem_cons.1 he with rfl | he
    · show (name == f.1) = false
      simpa using hname f hf
    · exact hbefore f (List.mem_cons_of_mem _ hf) e he)
  have hkey' := hkey s count
  have hvalue' := hvalue s count
  rw [Source.readEntries, StateT.run_bind, hkey']
  show StateT.run (if (before.any fun e => Datum.same e.1 (.text name)) = true then _ else
    (s.read depth node >>= fun v =>
      Source.readEntries (s.read depth) place ((.text name, v) :: before) nodes)) count = _
  rw [hnew, if_neg (by decide), StateT.run_bind, hvalue']
  show (Source.readEntries (s.read depth) place ((.text name, value.datum) :: before) nodes).run
    count = _
  rw [hnext, entries]
  simp

theorem readsAs_mapping {depth : ℕ} {fields : List (String × Document)}
    {nodes : List (Node × Node)} {place : Place} (h : ReadsEntries depth fields nodes) :
    ReadsAs (depth + 1) (.mapping none nodes place) (.dict (entries fields)) := by
  intro s count
  have hentries := h s count place [] (fun _ _ _ he => absurd he List.not_mem_nil)
  unfold Source.read
  show StateT.run (Source.readEntries (s.read depth) place [] nodes >>= fun read =>
    pure (Datum.dict read)) count = _
  rw [StateT.run_bind, hentries]
  rfl

/-! ### Building -/

/-- The builder after a finished node made of so many events. -/
def Builder.take (b : Builder) (node : Node) (count : ℕ) : Builder :=
  { b.place node none with size := b.size + count }

/-- Whatever the places of these events, a node with this datum is built of them, and the builder
goes on with the events after them. -/
def Builds (events : List Event) (depth : ℕ) (datum : Datum) : Prop :=
  ∀ placed : List (Event × Place), placed.map (·.1) = events →
    ∃ node, ReadsAs depth node datum ∧ ∃ count, ∀ fault b rest,
      documentsFrom fault b (placed ++ rest) = documentsFrom fault (b.take node count) rest

/-- The events, one by one. -/
theorem exists_of_map_event {placed : List (Event × Place)} {event : Event} {events : List Event}
    (h : placed.map (·.1) = event :: events) :
    ∃ place more, placed = (event, place) :: more ∧ more.map (·.1) = events := by
  obtain ⟨⟨event', place⟩, more, rfl, hevent, hmore⟩ := List.map_eq_cons_iff.1 h
  obtain rfl : event' = event := hevent
  exact ⟨place, more, rfl, hmore⟩

theorem builds_scalar {depth : ℕ} {text : String} {isPlain : Bool}
    (h : isPlain = true → Scalar.isPlainText text = true) :
    Builds [.scalar none none text isPlain] depth (.text text) := by
  intro placed hplaced
  obtain ⟨place, more, rfl, hnil⟩ := exists_of_map_event hplaced
  obtain rfl := List.map_eq_nil_iff.1 hnil
  refine ⟨.scalar none text isPlain place, readsAs_scalar h, 1, ?_⟩
  rintro fault ⟨frames, root, names, starts, kept, size⟩ rest
  cases frames <;> rfl

theorem builds_brackets {depth : ℕ} :
    Builds [.sequenceStart none none, .sequenceEnd] (depth + 1) (.list []) := by
  intro placed hplaced
  obtain ⟨place, more, rfl, hmore⟩ := exists_of_map_event hplaced
  obtain ⟨place', more, rfl, hnil⟩ := exists_of_map_event hmore
  obtain rfl := List.map_eq_nil_iff.1 hnil
  refine ⟨.sequence none [] place, readsAs_emptySequence, 2, ?_⟩
  rintro fault ⟨frames, root, names, starts, kept, size⟩ rest
  cases frames <;> rfl

/-- Keys and values in turn. -/
def flat (nodes : List (Node × Node)) : List Node := nodes.flatMap fun e => [e.1, e.2]

theorem pairs_flat (nodes : List (Node × Node)) : pairs (flat nodes) = nodes := by
  induction nodes with
  | nil => rfl
  | cons e nodes ih =>
      show e :: pairs (flat nodes) = _
      rw [ih]

/-- The builder with nodes put into the collection that is open. -/
def Builder.fill (b : Builder) (frame : Frame) (frames : List Frame) (nodes : List Node)
    (count : ℕ) : Builder :=
  { b with
    frames := { frame with children := nodes.reverse ++ frame.children } :: frames
    size := b.size + count }

theorem builds_fields {isPlain : String → Bool} {depth : ℕ} {fields : List (String × Document)}
    (hnodup : (fields.map (·.1)).Nodup)
    (hplain : ∀ f ∈ fields, isPlain f.1 = true → Scalar.isPlainText f.1 = true)
    (hfields : ∀ f ∈ fields, Builds (f.2.events isPlain) depth f.2.datum) :
    ∀ placed : List (Event × Place), placed.map (·.1) = fieldEvents isPlain fields →
      ∃ nodes, ReadsEntries depth fields nodes ∧ ∃ count, ∀ fault (b : Builder) frame frames rest,
        b.frames = frame :: frames →
        documentsFrom fault b (placed ++ rest)
          = documentsFrom fault (b.fill frame frames (flat nodes) count) rest := by
  induction fields with
  | nil =>
      intro placed hplaced
      obtain rfl := List.map_eq_nil_iff.1 hplaced
      refine ⟨[], readsEntries_nil, 0, ?_⟩
      intro fault b frame frames rest hframes
      have hsame : b.fill frame frames (flat []) 0 = b := by
        unfold Builder.fill
        cases b
        cases hframes
        rfl
      rw [hsame]
      rfl
  | cons f fields ih =>
      obtain ⟨name, value⟩ := f
      intro placed hplaced
      obtain ⟨place, afterName, rfl, hafterName⟩ := exists_of_map_event hplaced
      obtain ⟨valuePlaced, morePlaced, rfl, hvaluePlaced, hmorePlaced⟩ :=
        List.map_eq_append_iff.1 hafterName
      obtain ⟨node, hnode, count, hvalue⟩ :=
        hfields _ List.mem_cons_self valuePlaced hvaluePlaced
      have hnames : name ∉ fields.map (·.1) := (List.nodup_cons.1 hnodup).1
      obtain ⟨nodes, hnodes, count', hmore⟩ := ih (List.nodup_cons.1 hnodup).2
        (fun f hf => hplain f (List.mem_cons_of_mem _ hf))
        (fun f hf => hfields f (List.mem_cons_of_mem _ hf)) morePlaced hmorePlaced
      let key : Node := .scalar none name (isPlain name) place
      have hkey : ReadsAs depth key (.text name) := readsAs_scalar (hplain _ List.mem_cons_self)
      have hother : ∀ f ∈ fields, name ≠ f.1 := by
        rintro f hf rfl
        exact hnames (List.mem_map_of_mem hf)
      refine ⟨(key, node) :: nodes, readsEntries_cons hkey hnode hother hnodes,
        1 + count + count', ?_⟩
      rintro fault ⟨frames', root, names, starts, kept, size⟩ frame frames rest hframes
      obtain rfl : frames' = frame :: frames := hframes
      -- The name goes into the open mapping, then the value, then the fields that follow.
      let withKey : Builder :=
        ⟨{ frame with children := key :: frame.children } :: frames, root, names, starts, kept,
          size + 1⟩
      have hstep : documentsFrom fault ⟨frame :: frames, root, names, starts, kept, size⟩
          ((.scalar none none name (isPlain name), place) :: (valuePlaced ++ morePlaced) ++ rest)
          = documentsFrom fault withKey (valuePlaced ++ (morePlaced ++ rest)) := by
        rw [← List.append_assoc]
        rfl
      rw [hstep, hvalue, hmore fault (withKey.take node count)
        { frame with children := node :: key :: frame.children } frames rest rfl]
      have hfill : (withKey.take node count).fill
            { frame with children := node :: key :: frame.children } frames (flat nodes) count'
          = Builder.fill ⟨frame :: frames, root, names, starts, kept, size⟩ frame frames
            (flat ((key, node) :: nodes)) (1 + count + count') := by
        have hflat : flat ((key, node) :: nodes) = key :: node :: flat nodes := rfl
        have hsize : size + 1 + count + count' = size + (1 + count + count') := by omega
        unfold Builder.fill
        rw [hflat]
        simp only [List.reverse_cons, List.append_assoc, List.cons_append, List.nil_append]
        show (⟨_, root, names, starts, kept, size + 1 + count + count'⟩ : Builder) = _
        rw [hsize]
      rw [hfill]

theorem builds_record {isPlain : String → Bool} {depth : ℕ} {fields : List (String × Document)}
    (hnodup : (fields.map (·.1)).Nodup)
    (hplain : ∀ f ∈ fields, isPlain f.1 = true → Scalar.isPlainText f.1 = true)
    (hfields : ∀ f ∈ fields, Builds (f.2.events isPlain) depth f.2.datum) :
    Builds (.mappingStart none none :: (fieldEvents isPlain fields ++ [.mappingEnd])) (depth + 1)
      (.dict (entries fields)) := by
  intro placed hplaced
  obtain ⟨place, more, rfl, hmore⟩ := exists_of_map_event hplaced
  obtain ⟨fieldsPlaced, endPlaced, rfl, hfieldsPlaced, hendPlaced⟩ := List.map_eq_append_iff.1 hmore
  obtain ⟨place', more, rfl, hnil⟩ := exists_of_map_event hendPlaced
  obtain rfl := List.map_eq_nil_iff.1 hnil
  obtain ⟨nodes, hnodes, count, hbuild⟩ :=
    builds_fields hnodup hplain hfields fieldsPlaced hfieldsPlaced
  refine ⟨.mapping none nodes place, readsAs_mapping hnodes, 1 + count + 1, ?_⟩
  rintro fault ⟨frames, root, names, starts, kept, size⟩ rest
  let frame : Frame := ⟨true, none, place, none, []⟩
  have hstart : documentsFrom fault ⟨frames, root, names, starts, kept, size⟩
      ((.mappingStart none none, place) :: (fieldsPlaced ++ [(.mappingEnd, place')]) ++ rest)
      = documentsFrom fault ⟨frame :: frames, root, names, starts, kept, size + 1⟩
        (fieldsPlaced ++ ((.mappingEnd, place') :: rest)) := by
    rw [List.cons_append, List.append_assoc]
    rfl
  rw [hstart, hbuild fault _ frame frames _ rfl]
  have hclose : Frame.close { frame with children := (flat nodes).reverse ++ frame.children }
      = .mapping none nodes place := by
    show Node.mapping none (pairs ((flat nodes).reverse ++ []).reverse) place = _
    rw [List.append_nil, List.reverse_reverse, pairs_flat]
  let inner : Builder := ⟨frames, root, names, starts, kept, size + 1 + count⟩
  let counted (b : Builder) : Builder := { b with size := b.size + 1 }
  have hend : documentsFrom fault
        (Builder.fill ⟨frame :: frames, root, names, starts, kept, size + 1⟩ frame frames
          (flat nodes) count) ((.mappingEnd, place') :: rest)
      = documentsFrom fault (counted (inner.place (.mapping none nodes place) none)) rest := by
    rw [← hclose]
    rfl
  have hafter : counted (inner.place (.mapping none nodes place) none)
      = Builder.take ⟨frames, root, names, starts, kept, size⟩ (.mapping none nodes place)
        (1 + count + 1) := by
    have hsize : size + 1 + count + 1 = size + (1 + count + 1) := by omega
    cases frames with
    | nil =>
        show (⟨[], _, names, starts, kept, size + 1 + count + 1⟩ : Builder) = _
        rw [hsize]
        rfl
    | cons outer frames =>
        show (⟨_, root, names, starts, kept, size + 1 + count + 1⟩ : Builder) = _
        rw [hsize]
        rfl
  rw [hend, hafter]

/-! ### Outlines -/

/-- An outline is built and read, if the words that the writer leaves without quotes are texts. -/
theorem builds_outline {isPlain : String → Bool}
    (hplain : ∀ text, isPlain text = true → Scalar.isPlainText text = true) {depth : ℕ}
    {d : Document} (h : d.IsOutline depth) : Builds (d.events isPlain) depth d.datum := by
  induction h with
  | text hword =>
      rw [Document.events, Document.datum]
      exact builds_scalar (hplain _)
  | list =>
      rw [Document.events, Document.datum, Document.data]
      exact builds_brackets
  | record hne hnodup hnames hfields ih =>
      rw [Document.events, Document.datum]
      exact builds_record hnodup (fun f _ => hplain f.1) ih

open Event.Parser (Part streamEvents streamEvents_cons)

/-- A source for each document of a stream, with its datum. -/
theorem datum_stream {parts : List Part} {data : List Datum}
    (h : List.Forall₂ (fun part datum => Builds part.events Source.maxDepth datum) parts data)
    {placed : List (Event × Place)} (hplaced : placed.map (·.1) = streamEvents parts) :
    (documentsFrom none .empty placed).map Source.datum = data.map .ok := by
  induction h generalizing placed with
  | nil =>
      obtain rfl := List.map_eq_nil_iff.1 hplaced
      rfl
  | @cons part datum parts data hpart hrest ih =>
      rw [streamEvents_cons] at hplaced
      obtain ⟨startPlace, more, rfl, hmore⟩ := exists_of_map_event hplaced
      obtain ⟨partPlaced, later, rfl, hpartPlaced, hlater⟩ := List.map_eq_append_iff.1 hmore
      obtain ⟨endPlace, restPlaced, rfl, hrestPlaced⟩ := exists_of_map_event hlater
      obtain ⟨node, hnode, count, hbuild⟩ := hpart partPlaced hpartPlaced
      have hstart : documentsFrom none .empty ((.documentStart, startPlace)
          :: (partPlaced ++ (.documentEnd, endPlace) :: restPlaced))
          = documentsFrom none .empty (partPlaced ++ (.documentEnd, endPlace) :: restPlaced) := rfl
      have hend : documentsFrom none (Builder.empty.take node count)
          ((.documentEnd, endPlace) :: restPlaced)
          = ⟨some node, [], 0 + count, none⟩ :: documentsFrom none .empty restPlaced := rfl
      have hdatum : Source.datum ⟨some node, [], 0 + count, none⟩ = .ok datum := by
        unfold Source.datum
        show ((Source.read _ Source.maxDepth node).run 0 >>= _) = _
        rw [hnode]
        rfl
      rw [hstart, hbuild, hend, List.map_cons, List.map_cons, hdatum, ih hrestPlaced]

end Node

end ControlPlane.Yaml
