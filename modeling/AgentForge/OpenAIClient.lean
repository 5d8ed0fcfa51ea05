import AgentForge.Engine

/-! The client of an OpenAI-compatible provider. A completion comes as a whole or as a stream of
server-sent events, from which the response is assembled piece by piece. How `encoding/json`
decodes an event, and in which order Go ranges over a map, are left open. -/
namespace AgentForge

/-- The content of a message, as JSON has it. -/
inductive RawContent where
  | null
  | text (content : String)
  | parts (parts : List (String × String))
  | other

def normalizeContent : RawContent → String
  | .text content => content
  | .parts parts => String.join (parts.filterMap fun (type, text) =>
      if type = "text" ∨ type = "" then some text else none)
  | .null | .other => ""

/-- The tool call of a response, unless it names no tool. -/
def normalizeCall (tc : ToolCall) : Option ToolCall :=
  if GoText.trimSpace tc.name = "" then none
  else
    let args := GoText.trimSpace tc.args
    some ⟨tc.id, tc.name, if args = "" then "\x7b\x7d" else args⟩

/-! ## A whole completion -/

/-- `openAIChoice`; the arguments of its calls are as they came. -/
structure OpenAIChoice where
  content : RawContent
  toolCalls : List ToolCall
  finishReason : String

/-- `openAIChatResponse`. -/
structure OpenAIChatResponse where
  choices : List OpenAIChoice
  usage : Option TokenUsage

def completionToLLMResponse (modelID : String) (completion : OpenAIChatResponse) :
    Except String LLMResponse :=
  match completion.choices with
  | [] => .error "engine: openai client: empty choices"
  | choice :: _ => .ok
    { content := normalizeContent choice.content
      toolCalls := choice.toolCalls.filterMap normalizeCall
      tokenUsage := completion.usage
      finishReason := choice.finishReason
      modelID := modelID
      provider := "openai" }

/-! ## The events of a stream -/

/-- `openAIStreamToolCall`. -/
structure ToolCallDelta where
  index : Int
  id : String
  name : String
  arguments : String

/-- `openAIStreamChoice`. -/
structure StreamChoice where
  content : RawContent
  toolCalls : List ToolCallDelta
  finishReason : String

/-- `openAIChatStreamResponse`. -/
structure StreamChunk where
  choices : List StreamChoice
  usage : Option TokenUsage

/-- What `ChatStream` has assembled. -/
structure StreamState where
  content : String := ""
  calls : AList (fun _ : Int => ToolCall) := ∅
  finishReason : String := ""
  usage : Option TokenUsage := none

/-- A field that is empty changes nothing. -/
def keep (old new : String) : String := if new ≠ "" then new else old

def ToolCallDelta.addTo (call : ToolCall) (tcd : ToolCallDelta) : ToolCall :=
  ⟨keep call.id tcd.id, keep call.name tcd.name, call.args ++ tcd.arguments⟩

def addDelta (calls : AList fun _ : Int => ToolCall) (tcd : ToolCallDelta) :
    AList fun _ : Int => ToolCall :=
  calls.insert tcd.index (tcd.addTo ((calls.lookup tcd.index).getD ⟨"", "", ""⟩))

def StreamState.add (st : StreamState) (chunk : StreamChunk) : StreamState :=
  let st := { st with usage := chunk.usage <|> st.usage }
  match chunk.choices with
  | [] => st
  | choice :: _ =>
    { st with
      finishReason := keep st.finishReason choice.finishReason
      content := st.content ++ normalizeContent choice.content
      calls := choice.toolCalls.foldl addDelta st.calls }

/-! The indices are put in order by exchanges: each place in turn gets the least of what is
behind it. -/

def exchange : Int → List Int → Int × List Int
  | least, [] => (least, [])
  | least, idx :: rest =>
    let later := exchange (if idx < least then idx else least) rest
    (later.1, (if idx < least then least else idx) :: later.2)

def exchangeSort : Nat → List Int → List Int
  | n + 1, idx :: rest =>
    let placed := exchange idx rest
    placed.1 :: exchangeSort n placed.2
  | _, idxs => idxs

/-- The response made of what was assembled; `range` is the order of the map's keys. -/
def StreamState.response (range : List Int → List Int) (modelID : String) (st : StreamState) :
    LLMResponse where
  content := st.content
  toolCalls := (exchangeSort st.calls.keys.length (range st.calls.keys)).filterMap fun idx =>
    (st.calls.lookup idx).bind normalizeCall
  tokenUsage := st.usage
  finishReason := st.finishReason
  modelID := modelID
  provider := "openai"

/-! ## The bytes of a stream -/

def openAIMaxStreamBytes : Nat := 8 * 2 ^ 20
def openAIMaxSSELineBytes : Nat := 2 ^ 20

def utf8 (s : String) : Bytes := s.toList.flatMap String.utf8EncodeChar

/-- The encodings of the characters with the White_Space property. -/
def spaces : List Bytes :=
  ("\t\n\u000b\u000c\r \u0085\u00a0\u1680\u2000\u2001\u2002\u2003\u2004\u2005" ++
    "\u2006\u2007\u2008\u2009\u200a\u2028\u2029\u202f\u205f\u3000").toList.map String.utf8EncodeChar

/-- Drop up to so many of the given words from the front. -/
def trimLeft (words : List Bytes) : Nat → Bytes → Bytes
  | 0, line => line
  | n + 1, line =>
    match words.find? (·.isPrefixOf line) with
    | some word => trimLeft words n (line.drop word.length)
    | none => line

/-- `strings.TrimSpace` of a text that need not be valid UTF-8. -/
def trimBytes (line : Bytes) : Bytes :=
  let left := trimLeft spaces line.length line
  (trimLeft (spaces.map List.reverse) left.length left.reverse).reverse

/-- The lines of a text, the last of them unfinished: with `line` the bytes read of the first
one, latest first. -/
def scanLines (line : Bytes) : Bytes → List Bytes × Bytes
  | [] => ([], line.reverse)
  | b :: rest =>
    if b = 10 then
      let later := scanLines [] rest
      (line.reverse :: later.1, later.2)
    else scanLines (b :: line) rest

/-- The payload of a line that has one. The carriage return that `bufio.ScanLines` drops is
white space and goes with the rest of it. -/
def payload (line : Bytes) : Option Bytes :=
  let line := trimBytes line
  if line = [] ∨ (utf8 ":").isPrefixOf line then none
  else if (utf8 "data:").isPrefixOf line then
    let data := trimBytes (line.drop (utf8 "data:").length)
    if data = [] then none else some data
  else none

section Stream

variable (decode : Bytes → Except String StreamChunk)

/-- The loop of `ChatStream` over the lines the scanner gives. -/
def readLines : List Bytes → StreamState → Except String StreamState
  | [], st => .ok st
  | line :: rest, st =>
    if openAIMaxSSELineBytes ≤ line.length then
      .error "engine: openai client: read stream: bufio.Scanner: token too long"
    else
      match payload line with
      | none => readLines rest st
      | some data =>
        if data = utf8 "[DONE]" then .ok st
        else
          match decode data with
          | .error err => .error ("engine: openai client: decode stream chunk: " ++ err)
          | .ok chunk => readLines rest (st.add chunk)

/-- `OpenAICompatibleClient.ChatStream`, from the body of the answer on. -/
def openAIChatStream (range : List Int → List Int) (modelID : String) (body : Bytes) :
    Except String LLMResponse :=
  let scanned := scanLines [] (body.take openAIMaxStreamBytes)
  (readLines decode (scanned.1 ++ if scanned.2 = [] then [] else [scanned.2]) {}).map
    (·.response range modelID)

/-! ## Streams that are cut -/

/-- The line is a chunk with the finish reason. -/
def Finishes (line : Bytes) : Prop :=
  ∃ data chunk choice, payload line = some data ∧ decode data = .ok chunk ∧
    chunk.choices.head? = some choice ∧ choice.finishReason ≠ ""

/-- The line cannot be read: it is too long, or carries what is no event. -/
def Breaks (line : Bytes) : Prop :=
  openAIMaxSSELineBytes ≤ line.length ∨
    ∃ data err, payload line = some data ∧ data ≠ utf8 "[DONE]" ∧ decode data = .error err

/-- A stream of events that can be read, and that is marked as done only behind the chunk with
the finish reason. -/
structure ValidStream (whole : Bytes) : Prop where
  reads : ∀ line ∈ (scanLines [] whole).1, ¬ Breaks decode line
  done : ∀ before line after, (scanLines [] whole).1 = before ++ line :: after →
    payload line = some (utf8 "[DONE]") → ∃ earlier ∈ before, Finishes decode earlier

variable {decode} {range : List Int → List Int} {modelID : String}

private theorem scanLines_append (line cut rest : Bytes) :
    ∃ more, (scanLines line (cut ++ rest)).1 = (scanLines line cut).1 ++ more := by
  induction cut generalizing line with
  | nil => exact ⟨_, rfl⟩
  | cons b cut ih =>
    simp only [List.cons_append, scanLines]
    split
    · obtain ⟨more, same⟩ := ih []
      exact ⟨more, by simp [same]⟩
    · exact ih _

private theorem not_breaks (short : line.length < openAIMaxSSELineBytes)
    (found : payload line = some data)
    (decoded : decode data = .ok chunk) : ¬ Breaks decode line := by
  rintro (long | ⟨_, _, found', -, failed⟩)
  · omega
  · cases found.symm.trans found'
    cases decoded.symm.trans failed

private theorem not_breaks_nil : ¬ Breaks decode [] := by
  rintro (long | ⟨data, err, found, -⟩)
  · exact absurd long (by decide)
  · simp [payload, trimBytes, trimLeft] at found

private theorem readLines_breaks (breaks : Breaks decode line) (st : StreamState) :
    ∃ err, readLines decode [line] st = .error err := by
  rcases breaks with long | ⟨data, err, found, undone, failed⟩
  · exact ⟨_, if_pos long⟩
  · by_cases long : openAIMaxSSELineBytes ≤ line.length
    · exact ⟨_, if_pos long⟩
    · simp [readLines, long, found, undone, failed]

/-- A line that can be read ends the stream or adds to what was read. -/
theorem readLines_reads (reads : ¬ Breaks decode line) (st : StreamState) :
    payload line = some (utf8 "[DONE]") ∧ readLines decode [line] st = .ok st ∨
      ∃ st', ∀ later, readLines decode (line :: later) st = readLines decode later st' := by
  obtain ⟨short, readable⟩ := not_or.mp reads
  cases found : payload line with
  | none => exact .inr ⟨st, fun _ => by simp [readLines, short, found]⟩
  | some data =>
    by_cases done : data = utf8 "[DONE]"
    · exact .inl ⟨by rw [done], by simp [readLines, short, found, done]⟩
    · cases decoded : decode data with
      | error err => exact absurd ⟨data, err, found, done, decoded⟩ readable
      | ok chunk =>
        exact .inr ⟨st.add chunk, fun _ => by simp [readLines, short, found, done, decoded]⟩

private theorem readLines_append (reads : ∀ line ∈ lines, ¬ Breaks decode line)
    (undone : ∀ line ∈ lines, payload line ≠ some (utf8 "[DONE]")) (st : StreamState) :
    ∃ st', ∀ later, readLines decode (lines ++ later) st = readLines decode later st' := by
  induction lines generalizing st with
  | nil => exact ⟨st, fun _ => rfl⟩
  | cons line lines ih =>
    obtain ⟨first, others⟩ := List.forall_mem_cons.mp reads
    obtain ⟨open_, opens⟩ := List.forall_mem_cons.mp undone
    rcases readLines_reads first st with ⟨done, -⟩ | ⟨st₁, step⟩
    · exact absurd done open_
    · obtain ⟨st₂, rest⟩ := ih others opens st₁
      exact ⟨st₂, fun later => (step _).trans (rest later)⟩

/-- **A cut stream fails only inside an event.** Of a valid stream the client gets a part that
ends before the chunk with the finish reason, because the input ends or the client's own limit
cuts it. The call fails just if the cut leaves a last line that cannot be read; if it falls
between lines, or so that nothing of the last event is left, a response is returned. -/
theorem cut_stream_fails_iff {whole cut rest body : Bytes} (valid : ValidStream decode whole)
    (split : whole = cut ++ rest) (early : ∀ line ∈ (scanLines [] cut).1, ¬ Finishes decode line)
    (reads : body.take openAIMaxStreamBytes = cut) :
    (∃ err, openAIChatStream decode range modelID body = .error err) ↔
      Breaks decode (scanLines [] cut).2 := by
  obtain ⟨more, same⟩ := scanLines_append [] cut rest
  rw [← split] at same
  have readable : ∀ line ∈ (scanLines [] cut).1, ¬ Breaks decode line := fun line member =>
    valid.reads line (same ▸ List.mem_append_left _ member)
  have undone : ∀ line ∈ (scanLines [] cut).1, payload line ≠ some (utf8 "[DONE]") := by
    intro line member done
    obtain ⟨before, after, lines⟩ := List.append_of_mem member
    obtain ⟨earlier, there, finishes⟩ :=
      valid.done before line (after ++ more) (by rw [same, lines]; simp) done
    exact early earlier (lines ▸ List.mem_append_left _ there) finishes
  obtain ⟨st, front⟩ := readLines_append readable undone {}
  simp only [openAIChatStream, reads, front]
  constructor
  · rintro ⟨err, failed⟩
    by_contra whole
    split at failed
    · cases failed
    · rcases readLines_reads whole st with ⟨-, ended⟩ | ⟨st', step⟩
      · rw [ended] at failed
        cases failed
      · rw [step []] at failed
        cases failed
  · intro breaks
    obtain ⟨err, failed⟩ := readLines_breaks breaks st
    split
    · rename_i empty
      exact absurd (empty ▸ breaks) not_breaks_nil
    · exact ⟨err, by rw [failed]; rfl⟩

end Stream

/-! A stream of two events, the second of which carries the finish reason. -/

def wordEvent : Bytes := utf8 "\x7b\"choices\":[\x7b\"delta\":\x7b\"content\":\"par\"\x7d\x7d]\x7d"

def stopEvent : Bytes := utf8 "\x7b\"choices\":[\x7b\"finish_reason\":\"stop\"\x7d]\x7d"

def decodeEvents (data : Bytes) : Except String StreamChunk :=
  if data = wordEvent then .ok ⟨[⟨.text "par", [], ""⟩], none⟩
  else if data = stopEvent then .ok ⟨[⟨.null, [], "stop"⟩], none⟩
  else .error "unexpected end of JSON input"

def wordLine : Bytes := utf8 "data: " ++ wordEvent
def stopLine : Bytes := utf8 "data: " ++ stopEvent

private theorem payload_wordLine : payload wordLine = some wordEvent := by decide +kernel

private theorem payload_stopLine : payload stopLine = some stopEvent := by decide +kernel

private theorem two_events_valid :
    ValidStream decodeEvents (wordLine ++ [10] ++ stopLine ++ [10]) := by
  have lines : (scanLines [] (wordLine ++ [10] ++ stopLine ++ [10])).1 = [wordLine, stopLine] := by
    decide +kernel
  constructor
  · rw [lines]
    exact List.forall_mem_cons.mpr ⟨not_breaks (by decide +kernel) payload_wordLine rfl,
      List.forall_mem_cons.mpr ⟨not_breaks (by decide +kernel) payload_stopLine rfl, nofun⟩⟩
  · intro before line after same done
    have member : line ∈ [wordLine, stopLine] := by
      rw [← lines, same]
      simp
    rcases List.mem_pair.mp member with rfl | rfl
    · exact absurd (payload_wordLine.symm.trans done) (by decide +kernel)
    · exact absurd (payload_stopLine.symm.trans done) (by decide +kernel)

private theorem wordLine_early (alone : lines = [wordLine]) :
    ∀ line ∈ lines, ¬ Finishes decodeEvents line := by
  rw [alone]
  rintro _ (_ | ⟨_, ⟨⟩⟩) ⟨data, chunk, choice, found, decoded, first, reason⟩
  cases payload_wordLine.symm.trans found
  cases decoded
  cases first
  exact reason rfl

/-- The stream ends in its second event. -/
theorem cut_stream_fails_inside_event :
    ∃ err, openAIChatStream decodeEvents id "gpt-4o"
      (wordLine ++ [10] ++ utf8 "data: \x7b") = .error err := by
  have split : wordLine ++ [10] ++ stopLine ++ [10] =
    wordLine ++ [10] ++ utf8 "data: \x7b" ++ (stopEvent.tail ++ [10]) := by decide +kernel
  refine (cut_stream_fails_iff two_events_valid split (wordLine_early (by decide +kernel))
    (by decide +kernel)).mpr ?_
  exact .inr ⟨utf8 "\x7b", _, by decide +kernel, by decide +kernel, rfl⟩

/-- The stream ends between its events: the first is taken for the whole response. -/
theorem cut_stream_succeeds :
    ValidStream decodeEvents (wordLine ++ [10] ++ stopLine ++ [10]) ∧
    (∀ line ∈ (scanLines [] (wordLine ++ [10])).1, ¬ Finishes decodeEvents line) ∧
    ∃ resp, openAIChatStream decodeEvents id "gpt-4o" (wordLine ++ [10]) = .ok resp ∧
      resp.content = "par" ∧ resp.finishReason = "" :=
  ⟨two_events_valid, wordLine_early (by decide +kernel), _, rfl, rfl, rfl⟩

end AgentForge
