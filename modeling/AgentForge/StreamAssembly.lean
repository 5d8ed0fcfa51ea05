import AgentForge.OpenAIClient
import Mathlib.Data.List.Sort

/-! A streamed completion against the same completion decoded as a whole. However its fields are
cut into pieces and mixed, the client puts them together again, because every piece goes to its
field, and the calls are put in the order of their numbers. -/
namespace AgentForge

/-! ## Sorting by exchanges -/

private theorem exchange_perm (least : Int) (rest : List Int) :
    ((exchange least rest).1 :: (exchange least rest).2).Perm (least :: rest) := by
  induction rest generalizing least with
  | nil => exact .refl _
  | cons idx rest ih =>
    simp only [exchange]
    split
    · exact (List.Perm.swap ..).trans (((ih idx).cons least).trans (.refl _))
    · exact (List.Perm.swap ..).trans (((ih least).cons idx).trans (.swap ..))

private theorem exchange_le (least : Int) (rest : List Int) :
    ∀ idx ∈ least :: (exchange least rest).2, (exchange least rest).1 ≤ idx := by
  induction rest generalizing least with
  | nil => simp [exchange]
  | cons idx rest ih =>
    by_cases less : idx < least
    · have later := List.forall_mem_cons.mp (ih idx)
      simpa [exchange, less, later.1.trans less.le] using later.2
    · have later := List.forall_mem_cons.mp (ih least)
      simpa [exchange, less, later.1, later.1.trans (not_lt.mp less)] using later.2

private theorem exchangeSort_sorts (n : Nat) (idxs : List Int) (fits : idxs.length ≤ n) :
    (exchangeSort n idxs).Perm idxs ∧ (exchangeSort n idxs).Pairwise (· ≤ ·) := by
  induction n generalizing idxs with
  | zero => simp_all [exchangeSort]
  | succ n ih =>
    cases idxs with
    | nil => simp [exchangeSort]
    | cons idx rest =>
      have perm := exchange_perm idx rest
      have count := perm.length_eq
      obtain ⟨same, sorted⟩ := ih (exchange idx rest).2 (by simp_all)
      refine ⟨(same.cons _).trans perm, List.pairwise_cons.mpr ⟨fun a member => ?_, sorted⟩⟩
      exact exchange_le idx rest a (.tail _ (same.mem_iff.mp member))

/-! ## The pieces of a stream -/

/-- The choices of a stream that are read. -/
def heads (chunks : List StreamChunk) : List StreamChoice := chunks.filterMap (·.choices.head?)

def deltas (chunks : List StreamChunk) : List ToolCallDelta := (heads chunks).flatMap (·.toolCalls)

/-- All that is not empty is this text, in one piece. -/
def Once (text : String) (pieces : List String) : Prop :=
  pieces.filter (· ≠ "") = [text].filter (· ≠ "")

/-- The call with this number, if there is one. -/
def OpenAIChoice.callAt (choice : OpenAIChoice) (idx : Int) : ToolCall :=
  (if 0 ≤ idx then choice.toolCalls[idx.toNat]? else none).getD ⟨"", "", ""⟩

/-- The chunks are a completion in pieces. Contents and arguments may be cut anywhere and mixed
in any way, as long as the pieces of each field keep their order. -/
structure Fragments (choice : OpenAIChoice) (usage : Option TokenUsage)
    (chunks : List StreamChunk) : Prop where
  content : String.join ((heads chunks).map fun head => normalizeContent head.content) =
    normalizeContent choice.content
  finishReason : Once choice.finishReason ((heads chunks).map (·.finishReason))
  usage : chunks.filterMap (·.usage) = usage.toList
  numbered : ∀ tcd ∈ deltas chunks, ∃ n < choice.toolCalls.length, tcd.index = n
  id : ∀ i, Once (choice.callAt i).id (((deltas chunks).filter (·.index = i)).map (·.id))
  name : ∀ i, Once (choice.callAt i).name (((deltas chunks).filter (·.index = i)).map (·.name))
  arguments : ∀ i, String.join (((deltas chunks).filter (·.index = i)).map (·.arguments)) =
    (choice.callAt i).args

/-- The lines of a stream bring these chunks, none of them too long for the client. -/
inductive Carries (decode : Bytes → Except String StreamChunk) :
    List Bytes → List StreamChunk → Prop where
  | nil : Carries decode [] []
  | skip {line lines chunks} (short : line.length < openAIMaxSSELineBytes)
      (empty : payload line = none) (rest : Carries decode lines chunks) :
      Carries decode (line :: lines) chunks
  | done {line lines} (short : line.length < openAIMaxSSELineBytes)
      (marked : payload line = some (utf8 "[DONE]")) : Carries decode (line :: lines) []
  | chunk {line lines data chunk chunks} (short : line.length < openAIMaxSSELineBytes)
      (found : payload line = some data) (undone : data ≠ utf8 "[DONE]")
      (decoded : decode data = .ok chunk) (rest : Carries decode lines chunks) :
      Carries decode (line :: lines) (chunk :: chunks)

private theorem readLines_carries (carries : Carries decode lines chunks) (st : StreamState) :
    readLines decode lines st = .ok (chunks.foldl StreamState.add st) := by
  induction carries generalizing st with
  | nil => rfl
  | skip short empty _ ih => simp [readLines, not_le.mpr short, empty, ih]
  | done short marked => simp [readLines, not_le.mpr short, marked]
  | chunk short found undone decoded _ ih =>
    simp [readLines, not_le.mpr short, found, undone, decoded, ih]

/-! ## Putting them together -/

private theorem foldl_keep (once : Once text pieces) : pieces.foldl keep "" = text := by
  have skip : ∀ (pieces : List String) old,
      pieces.foldl keep old = (pieces.filter (· ≠ "")).foldl keep old := by
    intro pieces
    induction pieces with
    | nil => simp
    | cons piece rest ih =>
      intro old
      by_cases empty : piece = ""
      · simpa [empty, keep] using ih old
      · simpa [empty, keep] using ih piece
  rw [skip, once]
  by_cases empty : text = "" <;> simp [empty, keep]

private theorem foldl_add (chunks : List StreamChunk) (st : StreamState) :
    chunks.foldl StreamState.add st =
      { content := st.content ++
          String.join ((heads chunks).map fun head => normalizeContent head.content)
        calls := (deltas chunks).foldl addDelta st.calls
        finishReason := ((heads chunks).map (·.finishReason)).foldl keep st.finishReason
        usage := (chunks.filterMap (·.usage)).getLast? <|> st.usage } := by
  induction chunks generalizing st with
  | nil => simp [heads, deltas]
  | cons chunk rest ih =>
    obtain ⟨choices, usage⟩ := chunk
    cases choices <;> cases usage <;>
      simp [ih, heads, deltas, StreamState.add, String.append_assoc, List.filterMap_cons,
        List.getLast?_cons]

private theorem foldl_addTo (pieces : List ToolCallDelta) (call : ToolCall) :
    pieces.foldl ToolCallDelta.addTo call =
      ⟨(pieces.map (·.id)).foldl keep call.id, (pieces.map (·.name)).foldl keep call.name,
        call.args ++ String.join (pieces.map (·.arguments))⟩ := by
  induction pieces generalizing call with
  | nil => simp
  | cons piece rest ih => simp [ih, ToolCallDelta.addTo, String.append_assoc]

private theorem lookup_foldl_addDelta (pieces : List ToolCallDelta)
    (calls : AList fun _ : Int => ToolCall) (i : Int) : (pieces.foldl addDelta calls).lookup i =
      (pieces.filter (·.index = i)).foldl
        (fun call tcd => some (tcd.addTo (call.getD ⟨"", "", ""⟩))) (calls.lookup i) := by
  induction pieces generalizing calls with
  | nil => rfl
  | cons piece rest ih =>
    by_cases same : piece.index = i
    · subst same
      simp [ih, addDelta]
    · simp [ih, addDelta, same, AList.lookup_insert_ne (Ne.symm same)]

variable {choice : OpenAIChoice} {usage : Option TokenUsage} {chunks : List StreamChunk}

/-- Every call is put together from its pieces, or has none and names no tool. -/
theorem Fragments.lookup_call (fragments : Fragments choice usage chunks) (i : Int) :
    (((deltas chunks).foldl addDelta ∅).lookup i).bind normalizeCall =
      normalizeCall (choice.callAt i) := by
  have whole : ((deltas chunks).filter (·.index = i)).foldl ToolCallDelta.addTo ⟨"", "", ""⟩ =
      choice.callAt i := by
    rw [foldl_addTo, foldl_keep (fragments.id i), foldl_keep (fragments.name i),
      fragments.arguments i]
    simp
  have some_ : ∀ (pieces : List ToolCallDelta) call, pieces.foldl
      (fun call tcd => some (tcd.addTo (call.getD ⟨"", "", ""⟩))) (some call) =
        some (pieces.foldl ToolCallDelta.addTo call) := by
    intro pieces
    induction pieces with
    | nil => simp
    | cons piece rest ih => simp [ih]
  rw [lookup_foldl_addDelta, ← whole]
  cases (deltas chunks).filter (·.index = i) with
  | nil => rfl
  | cons piece rest => simp [some_]

private theorem filterMap_range (calls : List ToolCall) :
    (List.range calls.length).filterMap (fun n => calls[n]?.bind normalizeCall) =
      calls.filterMap normalizeCall := by
  induction calls with
  | nil => rfl
  | cons call rest ih =>
    simp [List.range_succ_eq_map, List.filterMap_map, ih, List.filterMap_cons]

/-- The calls in the order of their numbers. -/
theorem Fragments.toolCalls (fragments : Fragments choice usage chunks) {idxs : List Int}
    (keys : idxs.Perm ((deltas chunks).foldl addDelta ∅).keys) (sorted : idxs.Pairwise (· ≤ ·)) :
    idxs.filterMap (fun idx => (((deltas chunks).foldl addDelta ∅).lookup idx).bind normalizeCall) =
      choice.toolCalls.filterMap normalizeCall := by
  have held : ∀ i, i ∈ idxs ↔ i ∈ (deltas chunks).foldl addDelta ∅ := fun i =>
    keys.mem_iff.trans AList.mem_keys.symm
  have numbered : ∀ i ∈ idxs, ∃ n < choice.toolCalls.length, (n : Int) = i := by
    intro i member
    have there := AList.lookup_isSome.mpr ((held i).mp member)
    rw [lookup_foldl_addDelta] at there
    cases pieces : (deltas chunks).filter (·.index = i) with
    | nil => simp [pieces] at there
    | cons piece rest =>
      have among : piece ∈ (deltas chunks).filter (·.index = i) := by simp [pieces]
      obtain ⟨known, same⟩ := List.mem_filter.mp among
      obtain ⟨n, inside, number⟩ := fragments.numbered piece known
      exact ⟨n, inside, number.symm.trans (of_decide_eq_true same)⟩
  have order : idxs = ((List.range choice.toolCalls.length).map Nat.cast).filter (· ∈ idxs) := by
    have distinct : ((List.range choice.toolCalls.length).map (Nat.cast : Nat → Int)).Nodup :=
      List.nodup_range.map fun _ _ => Int.ofNat_inj.mp
    have ordered : ((List.range choice.toolCalls.length).map (Nat.cast : Nat → Int)).Pairwise
      (· ≤ ·) := List.pairwise_le_range.map _ fun _ _ => Int.ofNat_le.mpr
    refine List.Perm.eq_of_pairwise (fun a b _ _ => le_antisymm) sorted (ordered.filter _) ?_
    refine (List.perm_ext_iff_of_nodup (keys.nodup_iff.mpr (AList.keys_nodup _))
      (distinct.filter _)).mpr fun i => ?_
    simpa using numbered i
  rw [order, List.filterMap_filter, List.filterMap_map, ← filterMap_range]
  refine List.filterMap_congr fun n _ => ?_
  have call : choice.callAt n = (choice.toolCalls[n]?).getD ⟨"", "", ""⟩ := by
    simp [OpenAIChoice.callAt]
  have named : choice.toolCalls[n]?.bind normalizeCall = normalizeCall (choice.callAt n) := by
    rw [call]
    cases choice.toolCalls[n]? <;> rfl
  by_cases member : (n : Int) ∈ idxs
  · simp [member, fragments.lookup_call, named]
  · have absent := AList.lookup_eq_none.mpr (mt (held n).mpr member)
    simp [member, named, ← fragments.lookup_call, absent]

/-- **A stream is assembled to what the whole completion decodes to**, however it was cut into
chunks. -/
theorem stream_assembles_completion {decode : Bytes → Except String StreamChunk}
    {range : List Int → List Int} (ranges : ∀ keys, (range keys).Perm keys) {body : Bytes}
    (fits : body.length ≤ openAIMaxStreamBytes) (fragments : Fragments choice usage chunks)
    (carries : Carries decode ((scanLines [] body).1 ++
      if (scanLines [] body).2 = [] then [] else [(scanLines [] body).2]) chunks)
    (modelID : String) :
    openAIChatStream decode range modelID body =
      completionToLLMResponse modelID ⟨[choice], usage⟩ := by
  have order := exchangeSort_sorts ((deltas chunks).foldl addDelta ∅).keys.length
    (range ((deltas chunks).foldl addDelta ∅).keys) (ranges _).length_eq.le
  simp only [openAIChatStream, List.take_of_length_le fits, readLines_carries carries, foldl_add,
    Except.map, completionToLLMResponse, StreamState.response,
    fragments.toolCalls (order.1.trans (ranges _)) order.2, fragments.content, fragments.usage,
    foldl_keep fragments.finishReason]
  cases usage <;> simp

/-- A completion with two calls, and a stream of it: the content comes in two pieces, and the
pieces of the calls come in turn, the second call first. -/
def mixedChoice : OpenAIChoice :=
  ⟨.text "partial", [⟨"a", "ls", "[]"⟩, ⟨"b", "cat", "[1]"⟩], "tool_calls"⟩

def mixedChunks : List StreamChunk :=
  [⟨[⟨.text "par", [⟨1, "b", "cat", "[1"⟩, ⟨0, "a", "ls", ""⟩], ""⟩], none⟩,
   ⟨[⟨.text "tial", [⟨1, "", "", "]"⟩, ⟨0, "", "", "[]"⟩], "tool_calls"⟩], none⟩]

private theorem mixedChunks_fragments : Fragments mixedChoice none mixedChunks := by
  have apart : ∀ {i : Int}, i ≠ 0 → i ≠ 1 → (deltas mixedChunks).filter (·.index = i) = [] := by
    intro i zero one
    simp [deltas, heads, mixedChunks, zero.symm, one.symm]
  have missing : ∀ {i : Int}, i ≠ 0 → i ≠ 1 → mixedChoice.callAt i = ⟨"", "", ""⟩ := by
    intro i zero one
    rw [OpenAIChoice.callAt]
    split
    · have beyond : mixedChoice.toolCalls.length ≤ i.toNat := by
        change 2 ≤ i.toNat
        omega
      rw [List.getElem?_eq_none beyond]
      rfl
    · rfl
  have numbers : ∀ i : Int, i = 0 ∨ i = 1 ∨ i ≠ 0 ∧ i ≠ 1 := by omega
  constructor
  case content => decide +kernel
  case finishReason => simp [Once, heads, mixedChunks, mixedChoice]
  case usage => rfl
  case numbered =>
    have known : ∀ tcd ∈ deltas mixedChunks, tcd.index = 1 ∨ tcd.index = 0 := by
      simp [deltas, heads, mixedChunks]
    intro tcd member
    rcases known tcd member with one | zero
    · exact ⟨1, by decide, one⟩
    · exact ⟨0, by decide, zero⟩
  all_goals
    intro i
    rcases numbers i with rfl | rfl | ⟨zero, one⟩
    · simp [Once, OpenAIChoice.callAt, deltas, heads, mixedChunks, mixedChoice]
    · simp [Once, OpenAIChoice.callAt, deltas, heads, mixedChunks, mixedChoice]
    · rw [apart zero one, missing zero one]
      rfl

/-- The decoder that knows these events, each with its chunk. -/
def decodeTable (events : List Bytes) (chunks : List StreamChunk) (data : Bytes) :
    Except String StreamChunk :=
  match chunks[events.idxOf data]? with
  | some chunk => .ok chunk
  | none => .error "unexpected end of JSON input"

private theorem Carries.ofTable {events : List Bytes} {chunks : List StreamChunk}
    (distinct : events.Nodup) (lengths : events.length = chunks.length)
    (formed : ∀ event ∈ events, (utf8 "data: " ++ event).length < openAIMaxSSELineBytes ∧
      payload (utf8 "data: " ++ event) = some event ∧ event ≠ utf8 "[DONE]") :
    Carries (decodeTable events chunks) (events.map fun event => utf8 "data: " ++ event) chunks := by
  have decoded : List.Forall₂ (fun event chunk => decodeTable events chunks event = .ok chunk)
      events chunks := by
    refine List.forall₂_iff_get.mpr ⟨lengths, fun n inside inside' => ?_⟩
    simp [decodeTable, distinct.idxOf_getElem, inside']
  generalize decodeTable events chunks = decode at decoded
  clear distinct lengths
  induction decoded with
  | nil => exact .nil
  | cons first _ ih =>
    obtain ⟨⟨short, found, undone⟩, others⟩ := List.forall_mem_cons.mp formed
    exact .chunk short found undone first (ih others)

def mixedEvents : List Bytes :=
  [utf8 ("\x7b\"choices\":[\x7b\"delta\":\x7b\"content\":\"par\",\"tool_calls\":[\x7b\"index\":1," ++
    "\"id\":\"b\",\"function\":\x7b\"name\":\"cat\",\"arguments\":\"[1\"\x7d\x7d,\x7b\"index\":0," ++
    "\"id\":\"a\",\"function\":\x7b\"name\":\"ls\"\x7d\x7d]\x7d\x7d]\x7d"),
   utf8 ("\x7b\"choices\":[\x7b\"delta\":\x7b\"content\":\"tial\",\"tool_calls\":[\x7b\"index\":1," ++
    "\"function\":\x7b\"arguments\":\"]\"\x7d\x7d," ++
    "\x7b\"index\":0,\"function\":\x7b\"arguments\":\"[]\"\x7d\x7d]\x7d," ++
    "\"finish_reason\":\"tool_calls\"\x7d]\x7d")]

/-- The events are distinct, each stands alone in its line, and the lines are short. -/
theorem mixedEvents_formed : mixedEvents.Nodup ∧
    (∀ event ∈ mixedEvents, (utf8 "data: " ++ event).length < openAIMaxSSELineBytes ∧
      payload (utf8 "data: " ++ event) = some event ∧ event ≠ utf8 "[DONE]") ∧
    (mixedEvents.flatMap fun event => utf8 "data: " ++ event ++ [10]).length ≤
      openAIMaxStreamBytes ∧
    scanLines [] (mixedEvents.flatMap fun event => utf8 "data: " ++ event ++ [10]) =
      (mixedEvents.map fun event => utf8 "data: " ++ event, []) := by
  decide +kernel

theorem stream_assembles_mixed_calls :
    openAIChatStream (decodeTable mixedEvents mixedChunks) id "gpt-4o"
        (mixedEvents.flatMap fun event => utf8 "data: " ++ event ++ [10]) =
      completionToLLMResponse "gpt-4o" ⟨[mixedChoice], none⟩ := by
  obtain ⟨distinct, formed, fits, lines⟩ := mixedEvents_formed
  refine stream_assembles_completion (fun _ => .refl _) fits mixedChunks_fragments ?_ "gpt-4o"
  rw [lines]
  exact Carries.ofTable distinct (by simp [mixedEvents, mixedChunks]) formed

end AgentForge
