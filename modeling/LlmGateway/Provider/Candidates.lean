import LlmGateway.Provider.Grammar

namespace LlmGateway

section Labels

variable {α : Type} {label : α → Nat}

theorem filter_label {first : Nat} {items : List α} (labels : items.map label = List.range' first items.length)
    (i : Nat) : items.filter (fun a => label a = first + i) = items[i]?.toList := by
  induction items generalizing first i with
  | nil => rfl
  | cons a items ih =>
    rw [List.map_cons, List.length_cons, List.range'_succ] at labels
    obtain ⟨here, later⟩ := List.cons.inj labels
    cases i with
    | zero =>
      have others : items.filter (fun a => label a = first + 0) = [] := by
        rw [List.filter_eq_nil_iff]
        intro b member same
        have labelled : label b ∈ List.range' (first + 1) items.length := later ▸ List.mem_map_of_mem member
        rw [List.mem_range'_1] at labelled
        simp only [decide_eq_true_eq] at same
        omega
      rw [List.filter_cons_of_pos (by simpa using here), others]
      rfl
    | succ i =>
      rw [List.filter_cons_of_neg (by simp only [decide_eq_true_eq]; omega), List.getElem?_cons_succ, ← ih later i]
      simp only [Nat.add_right_comm, Nat.add_assoc]

/-- Where every item is labelled with its position, a label is found at its position. -/
theorem filter_position {items : List α} (labels : items.map label = List.range items.length) (i : Nat) :
    items.filter (fun a => label a = i) = items[i]?.toList := by
  rw [List.range_eq_range'] at labels
  simpa only [Nat.zero_add] using filter_label labels i

end Labels

theorem join_eq_empty {texts : List String} : String.join texts = "" ↔ ∀ text ∈ texts, text = "" := by
  induction texts with
  | nil => simp
  | cons text texts ih => rw [String.join_cons, String.append_eq_empty_iff, ih, List.forall_mem_cons]

namespace Google

def translateResponse (resp : GeminiResponse) (id reqModel : String) (now : Int) : ChatCompletionResponse where
  id := id
  object := "chat.completion"
  created := now
  model := reqModel
  choices := resp.candidates.mapIdx fun i candidate =>
    { index := i
      message := { role := "assistant", content := String.join candidate.parts }
      finishReason := mapFinishReason candidate.finishReason }
  usage := match resp.usageMetadata with
    | some u => ⟨u.promptTokenCount, u.candidatesTokenCount, u.totalTokenCount⟩
    | none => ⟨0, 0, 0⟩

/-- A candidate in a chunk of the API's stream, with the index that names it. -/
structure StreamedCandidate where
  index : Nat
  candidate : GeminiCandidate

/-- A chunk of the API's stream. -/
structure StreamedResponse where
  candidates : List StreamedCandidate
  usageMetadata : Option GeminiUsageMetadata := none

/-- What the adapter decodes: a `geminiCandidate` has no index. -/
def StreamedResponse.decoded (resp : StreamedResponse) : GeminiResponse where
  candidates := resp.candidates.map (·.candidate)
  usageMetadata := resp.usageMetadata

def StreamedResponse.indices (resp : StreamedResponse) : List Nat := resp.candidates.map (·.index)

/-- Which of `n` candidates each chunk of a stream carries, in the order of their indices. -/
structure Shape (n : Nat) where
  chunks : List (List Nat)
  ordered : ∀ indices ∈ chunks, indices.Pairwise (· < ·)
  bounded : ∀ indices ∈ chunks, ∀ i ∈ indices, i < n

/-- The parts of one candidate, in the order in which they are streamed. -/
def partsOf (i : Nat) (stream : List StreamedResponse) : List String :=
  stream.flatMap fun resp => (resp.candidates.filter (·.index = i)).flatMap (·.candidate.parts)

/-- The stream splits the texts of the answer's candidates into chunks of the given shape. -/
structure IsSplit {n : Nat} (shape : Shape n) (answer : GeminiResponse) (stream : List StreamedResponse) : Prop where
  candidates : answer.candidates.length = n
  shape : stream.map (·.indices) = shape.chunks
  texts : ∀ i, ∀ candidate ∈ answer.candidates[i]?, String.join (partsOf i stream) = String.join candidate.parts

/-- The text of one choice of a stream. -/
def grouped (events : List ChunkEvent) (i : Nat) : String :=
  String.join (events.flatMap fun
    | .chunk c => (c.choices.filter (·.index = i)).map (·.delta.content)
    | .err _ => [])

/-- Every choice has the same text in the stream as in the whole answer. -/
def SameTexts (events : List ChunkEvent) (resp : ChatCompletionResponse) : Prop :=
  ∀ choice ∈ resp.choices, grouped events choice.index = choice.message.content

/-- The data lines decode to the chunks of the stream. -/
def Brings (unmarshal : List UInt8 → Except String GeminiResponse) (lines : List (List UInt8))
    (stream : List StreamedResponse) : Prop :=
  (dataFrames lines).map unmarshal = stream.map fun resp => .ok resp.decoded

variable {unmarshal : List UInt8 → Except String GeminiResponse} {call : StreamCall} {lines : List (List UInt8)}
  {stream : List StreamedResponse} {n : Nat} {shape : Shape n} {answer : GeminiResponse}

/-- The parts at one position of the chunks, whichever candidate stands there. -/
def partsAt (i : Nat) (stream : List StreamedResponse) : List String :=
  stream.flatMap fun resp => resp.candidates[i]?.toList.flatMap (·.candidate.parts)

/-- The choices of a chunk are labelled with their positions. -/
theorem translateChunk_choice (resp : GeminiResponse) (streamID reqModel : String) (now : Int) (i : Nat) :
    (((translateChunk resp streamID reqModel now).choices.filter (·.index = i)).map (·.delta.content)) =
      resp.candidates[i]?.toList.map fun candidate => String.join candidate.parts := by
  have labels : (translateChunk resp streamID reqModel now).choices.map (·.index) =
      List.range (translateChunk resp streamID reqModel now).choices.length := by
    apply List.ext_getElem
    · simp
    · intro k _ _
      simp [translateChunk]
  rw [filter_position labels, translateChunk, List.getElem?_mapIdx]
  cases resp.candidates[i]? <;> rfl

theorem grouped_chunk (c : ChatCompletionChunk) (events : List ChunkEvent) (i : Nat) :
    grouped (.chunk c :: events) i =
      String.join ((c.choices.filter (·.index = i)).map (·.delta.content)) ++ grouped events i := by
  rw [grouped, List.flatMap_cons, String.join_append, grouped]

/-- The stream groups the parts by their positions. -/
theorem grouped_streamLoop (brings : Brings unmarshal lines stream) (i : Nat) :
    grouped (streamLoop unmarshal call none lines) i = String.join (partsAt i stream) := by
  induction lines generalizing stream with
  | nil =>
    obtain rfl : stream = [] := by simpa [Brings, dataFrames] using brings.symm
    rfl
  | cons line rest ih =>
    cases field : line.dropPrefix? dataField with
    | none =>
      rw [Brings, dataFrames_skip field] at brings
      simp only [streamLoop, field]
      exact ih brings
    | some data =>
      rw [Brings, dataFrames_data field, List.map_cons] at brings
      cases stream with
      | nil => cases brings
      | cons resp stream =>
        obtain ⟨decoded, brings⟩ := List.cons.inj brings
        simp only [streamLoop, field, decoded]
        have first :
            String.join (resp.decoded.candidates[i]?.toList.map fun candidate => String.join candidate.parts) =
            String.join (resp.candidates[i]?.toList.flatMap (·.candidate.parts)) := by
          rw [StreamedResponse.decoded, List.getElem?_map]
          cases resp.candidates[i]? <;> simp
        have both : partsAt i (resp :: stream) =
            resp.candidates[i]?.toList.flatMap (·.candidate.parts) ++ partsAt i stream := rfl
        rw [grouped_chunk, ih brings, translateChunk_choice, first, both, String.join_append]

/-- Where the position of every candidate is its index, the positions group the
parts by candidate. -/
theorem partsAt_eq_partsOf (positions : ∀ resp ∈ stream, resp.indices = List.range resp.indices.length) (i : Nat) :
    partsAt i stream = partsOf i stream := by
  refine List.flatMap_congr fun resp member => ?_
  have labels : resp.candidates.map (·.index) = List.range resp.candidates.length := by
    simpa [StreamedResponse.indices] using positions resp member
  rw [filter_position labels]

theorem sameTexts_of_positions (split : IsSplit shape answer stream)
    (positions : ∀ indices ∈ shape.chunks, indices = List.range indices.length)
    (brings : Brings unmarshal lines stream) (id reqModel : String) (now : Int) :
    SameTexts (streamLoop unmarshal call none lines) (translateResponse answer id reqModel now) := by
  have initial : ∀ resp ∈ stream, resp.indices = List.range resp.indices.length := by
    intro resp member
    exact positions _ (split.shape ▸ List.mem_map_of_mem member)
  intro choice member
  obtain ⟨i, bound, rfl⟩ := List.mem_mapIdx.mp member
  rw [grouped_streamLoop brings, partsAt_eq_partsOf initial]
  exact split.texts i _ (List.getElem?_eq_getElem bound)

/-- A list of increasing indices that is not an initial segment has one beyond its position. -/
theorem exists_beyond {indices : List Nat} (ordered : indices.Pairwise (· < ·))
    (gap : indices ≠ List.range indices.length) : ∃ q c : Nat, indices[q]? = some c ∧ q < c := by
  by_contra! within
  have below : ∀ q (bound : q < indices.length), q ≤ indices[q] := by
    intro q
    induction q with
    | zero => omega
    | succ q ih =>
      intro bound
      have previous := ih (by omega)
      have step := List.pairwise_iff_getElem.mp ordered q (q + 1) (by omega) bound (by omega)
      omega
  refine gap (List.ext_getElem (by simp) fun q bound _ => ?_)
  have upper := within q _ (List.getElem?_eq_getElem bound)
  have lower := below q bound
  rw [List.getElem_range]
  omega

/-- Any stream can be brought by some lines. -/
theorem exists_brings (stream : List StreamedResponse) : ∃ unmarshal lines, Brings unmarshal lines stream := by
  refine ⟨fun data => (stream[data.length]?.map (.ok ·.decoded)).getD (.error ""),
    (List.range stream.length).map fun k => dataField ++ List.replicate k 0, ?_⟩
  have frames : dataFrames ((List.range stream.length).map fun k => dataField ++ List.replicate k 0) =
      (List.range stream.length).map fun k => List.replicate k 0 := by
    rw [dataFrames, List.filterMap_map]
    simp only [Function.comp_def, dropPrefix_eq_some.mpr rfl, List.filterMap_eq_map']
  rw [Brings, frames, List.map_map]
  refine List.ext_getElem (by simp) fun k bound _ => ?_
  simp only [List.length_map, List.length_range] at bound
  simp [bound]

/-- The chunks of a shape in which only the candidate `c` says something. -/
def markedStream (c : Nat) (chunks : List (List Nat)) : List StreamedResponse :=
  chunks.map fun indices => { candidates := indices.map fun i => ⟨i, ⟨if i = c then ["x"] else [], ""⟩⟩ }

/-- The answer a stream of `n` candidates is a split of. -/
def assembled (n : Nat) (stream : List StreamedResponse) : GeminiResponse where
  candidates := (List.range n).map fun i => ⟨partsOf i stream, ""⟩

theorem isSplit_assembled {shape : Shape n} (same : stream.map (·.indices) = shape.chunks) :
    IsSplit shape (assembled n stream) stream where
  candidates := by simp [assembled]
  shape := same
  texts := by
    intro i candidate found
    rw [Option.mem_def, assembled, List.getElem?_map] at found
    obtain ⟨j, isIndex, rfl⟩ := Option.map_eq_some_iff.mp found
    obtain ⟨bound, rfl⟩ := List.getElem?_eq_some_iff.mp isIndex
    rw [List.getElem_range]

theorem choice_assembled {q : Nat} (bound : q < n) (id reqModel : String) (now : Int) :
    ⟨q, ⟨"assistant", String.join (partsOf q stream)⟩, mapFinishReason ""⟩ ∈
      (translateResponse (assembled n stream) id reqModel now).choices :=
  List.mem_mapIdx.mpr ⟨q, by simpa [assembled] using bound, by simp [assembled]⟩

theorem indices_markedStream (c : Nat) (chunks : List (List Nat)) :
    (markedStream c chunks).map (·.indices) = chunks := by
  simp [markedStream, StreamedResponse.indices, Function.comp_def]

theorem partsOf_markedStream {q c : Nat} (other : q ≠ c) (chunks : List (List Nat)) :
    partsOf q (markedStream c chunks) = [] := by
  simp only [partsOf, List.flatMap_eq_nil_iff, markedStream, List.mem_map]
  rintro _ ⟨indices, -, rfl⟩ _ kept
  obtain ⟨listed, named⟩ := List.mem_filter.mp kept
  obtain ⟨i, -, rfl⟩ := List.mem_map.mp listed
  obtain rfl : i = q := by simpa using named
  exact if_neg other

theorem mem_partsAt_markedStream {q c : Nat} {chunks : List (List Nat)} {indices : List Nat} (chunk : indices ∈ chunks)
    (position : indices[q]? = some c) : "x" ∈ partsAt q (markedStream c chunks) := by
  refine List.mem_flatMap.mpr ⟨_, List.mem_map_of_mem chunk, ?_⟩
  simp [position]

/-- For every shape of a stream: whatever the candidates say, the stream and the whole
answer have the same texts, if and only if every chunk carries the candidates from
the first one on without a gap. -/
theorem same_texts_iff_no_gap {n : Nat} (shape : Shape n) :
    (∀ answer stream, IsSplit shape answer stream →
      ∀ unmarshal lines, Brings unmarshal lines stream →
        ∀ call id reqModel now,
          SameTexts (streamLoop unmarshal call none lines) (translateResponse answer id reqModel now)) ↔
      ∀ indices ∈ shape.chunks, indices = List.range indices.length := by
  constructor
  · intro same indices chunk
    by_contra gap
    obtain ⟨q, c, position, beyond⟩ := exists_beyond (shape.ordered indices chunk) gap
    have bound : c < n := shape.bounded indices chunk c (List.mem_of_getElem? position)
    have split := isSplit_assembled (indices_markedStream c shape.chunks)
    obtain ⟨unmarshal, lines, brings⟩ := exists_brings (markedStream c shape.chunks)
    have given := same _ _ split unmarshal lines brings ⟨"", "", fun _ => 0⟩ "" "" 0 _
      (choice_assembled (by omega : q < n) "" "" 0)
    rw [grouped_streamLoop brings, partsOf_markedStream (by omega : q ≠ c), String.join_nil, join_eq_empty] at given
    exact absurd (given "x" (mem_partsAt_markedStream chunk position)) (by decide)
  · intro positions answer stream split unmarshal lines brings call id reqModel now
    exact sameTexts_of_positions split positions brings id reqModel now

/-- Two candidates that speak in turn: both texts are given to the first choice. -/
theorem second_candidate_alone_is_first_choice :
    let answer : GeminiResponse := { candidates := [⟨["a"], "STOP"⟩, ⟨["b"], "STOP"⟩] }
    let stream : List StreamedResponse :=
      [{ candidates := [⟨0, ["a"], "STOP"⟩] }, { candidates := [⟨1, ["b"], "STOP"⟩] }]
    let shape : Shape 2 := ⟨[[0], [1]], by decide, by decide⟩
    let lines : List (List UInt8) := [dataField ++ [0], dataField ++ [1]]
    let unmarshal : List UInt8 → Except String GeminiResponse := fun data =>
      .ok { candidates := if data = [0] then [⟨["a"], "STOP"⟩] else [⟨["b"], "STOP"⟩] }
    let events := streamLoop unmarshal ⟨"", "", fun _ => 0⟩ none lines
    IsSplit shape answer stream ∧ Brings unmarshal lines stream ∧ grouped events 0 = "ab" ∧ grouped events 1 = "" ∧
      ¬ SameTexts events (translateResponse answer "" "" 0) := by
  intro answer stream shape lines unmarshal events
  have merged : grouped events 0 = "ab" := by decide
  refine ⟨⟨rfl, rfl, ?_⟩, rfl, merged, by decide, ?_⟩
  · rintro (_ | _ | i) candidate ⟨⟩
    · decide
    · decide
  · intro same
    have first : grouped events 0 = "a" := same ⟨0, ⟨"assistant", "a"⟩, "stop"⟩ (by decide)
    exact absurd (merged.symm.trans first) (by decide)

end Google

end LlmGateway
