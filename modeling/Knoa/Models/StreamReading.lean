import Knoa.Models.StreamFormats

/-!
# What the provider reads out of a stream

Every fragmentation and interleaving of a response leaves the provider with its content and with
one chunk about its calls.
-/
namespace Knoa.Models

structure Shown (content : String) (chunks : List ProviderChunk) : Prop where
  content : String.join (chunks.map ProviderChunk.contentDelta) = content
  quiet : ∀ chunk ∈ chunks, chunk.terminal = false

theorem join_append (xs ys : List String) :
    String.join (xs ++ ys) = String.join xs ++ String.join ys := by
  induction xs with
  | nil => simp
  | cons x xs ih => simp [ih, String.append_assoc]

theorem Shown.nil : Shown "" [] := ⟨rfl, nofun⟩

theorem Shown.append {a b : String} {xs ys : List ProviderChunk} (left : Shown a xs)
    (right : Shown b ys) : Shown (a ++ b) (xs ++ ys) := by
  refine ⟨?_, ?_⟩
  · rw [List.map_append, join_append, left.content, right.content]
  · intro chunk member
    rcases List.mem_append.mp member with here | there
    · exact left.quiet chunk here
    · exact right.quiet chunk there

theorem passOn_shown (chunk : StreamChunk) : Shown chunk.deltaContent (passOn chunk) := by
  have content : Shown chunk.deltaContent
      (if chunk.deltaContent = "" then [] else [{ contentDelta := chunk.deltaContent }]) := by
    split
    · rename_i empty
      rw [empty]
      exact Shown.nil
    · refine ⟨by simp, ?_⟩
      intro chunk member
      rw [List.mem_singleton] at member
      rw [member]
  have thinking : Shown ""
      (if chunk.deltaThinking = "" then [] else [{ reasoningDelta := chunk.deltaThinking }]) := by
    split
    · exact Shown.nil
    · refine ⟨by simp, ?_⟩
      intro chunk member
      rw [List.mem_singleton] at member
      rw [member]
  have both := content.append thinking
  rw [String.append_empty] at both
  exact both

variable {content : String} {chunks : List ProviderChunk}

theorem outcome_shown (shown : Shown content chunks) : outcome chunks = ⟨content, [], []⟩ := by
  have calls : chunks.flatMap ProviderChunk.toolCalls = [] := by
    rw [List.flatMap_eq_nil_iff]
    intro chunk member
    by_contra some_call
    have terminal := chunk.calls some_call
    rw [shown.quiet chunk member] at terminal
    cases terminal
  have finish : chunks.filter ProviderChunk.terminal = [] := by
    rw [List.filter_eq_nil_iff]
    intro chunk member
    rw [shown.quiet chunk member]
    decide
  simp only [outcome, shown.content, calls, finish, List.map_nil]

theorem outcome_append (xs ys : List ProviderChunk) :
    outcome (xs ++ ys) = ⟨(outcome xs).content ++ (outcome ys).content,
      (outcome xs).calls ++ (outcome ys).calls, (outcome xs).finish ++ (outcome ys).finish⟩ := by
  simp only [outcome, List.map_append, join_append, List.flatMap_append, List.filter_append]

/-- What chat completions and Responses make of the arguments. -/
def Arguments.strict : Arguments → Option (List (String × Json))
  | .object fields => some fields
  | .absent => none
  | .broken text _ => proposedArguments (loadedArguments text)

/-- What the Anthropic accumulator makes of them. -/
def Arguments.lenient : Arguments → Option (List (String × Json))
  | .object fields => some fields
  | .absent => some []
  | .broken text _ =>
    proposedArguments (if text = "" then .obj [] else (Json.loads text.toList).getD (.obj []))

theorem loads_empty : Json.loads "".toList = none := by decide

variable {text : String}

theorem strict_loaded {arguments : Arguments} (stands : arguments.Text text) :
    proposedArguments (loadedArguments text) = arguments.strict := by
  cases arguments with
  | object fields =>
    change Json.loads text.toList = _ at stands
    simp only [loadedArguments, stands, Option.getD_some, proposedArguments, Arguments.strict]
  | absent =>
    change text = "" at stands
    simp only [stands, loadedArguments, loads_empty, Option.getD_none, proposedArguments,
      Arguments.strict]
  | broken given other =>
    change text = given at stands
    rw [stands, Arguments.strict]

theorem lenient_loaded {arguments : Arguments} (stands : arguments.Text text) : proposedArguments
      (if text = "" then .obj [] else (Json.loads text.toList).getD (.obj [])) =
      arguments.lenient := by
  cases arguments with
  | object fields =>
    change Json.loads text.toList = _ at stands
    have written : text ≠ "" := by
      intro empty
      rw [empty, loads_empty] at stands
      cases stands
    simp only [if_neg written, stands, Option.getD_some, proposedArguments, Arguments.lenient]
  | absent =>
    change text = "" at stands
    simp only [stands, if_true, proposedArguments, Arguments.lenient]
  | broken given other =>
    change text = given at stands
    rw [stands, Arguments.lenient]

/-- The call that is proposed if the arguments are read as `arguments`. -/
def LogicalCall.proposed (call : LogicalCall) (arguments : List (String × Json)) :
    ProposedToolCall where
  callId := call.id
  name := call.name
  arguments := arguments

theorem mapM_cons_bind {α β : Type*} (f : α → Option β) (x : α) (xs : List α) :
    (x :: xs).mapM f = (f x).bind fun y => (xs.mapM f).map (y :: ·) := by
  rw [List.mapM_cons]
  cases f x with
  | none => rfl
  | some y =>
    cases xs.mapM f with
    | none | some ys => rfl

section
variable (read : Arguments → Option (List (String × Json)))

def readCalls (calls : List LogicalCall) : Option (List ProposedToolCall) :=
  calls.mapM fun call => (read call.arguments).map call.proposed

theorem readCalls_cons (call : LogicalCall) (calls : List LogicalCall) :
    readCalls read (call :: calls) = ((read call.arguments).map call.proposed).bind fun first =>
      (readCalls read calls).map (first :: ·) :=
  mapM_cons_bind _ call calls

theorem readCalls_eq_none {calls : List LogicalCall} {call : LogicalCall} (member : call ∈ calls)
    (unread : read call.arguments = none) : readCalls read calls = none := by
  induction calls with
  | nil => cases member
  | cons head calls ih =>
    rw [readCalls_cons]
    rcases List.mem_cons.mp member with rfl | later
    · rw [unread]
      rfl
    · rw [ih later]
      cases (read head.arguments).map head.proposed with
      | none | some first => rfl

theorem readCalls_eq_some {calls : List LogicalCall} {fields : LogicalCall → List (String × Json)}
    (all : ∀ call ∈ calls, read call.arguments = some (fields call)) :
    readCalls read calls = some (calls.map fun call => call.proposed (fields call)) := by
  induction calls with
  | nil => rfl
  | cons head calls ih =>
    rw [readCalls_cons, all head List.mem_cons_self,
      ih fun call member => all call (List.mem_cons_of_mem _ member)]
    rfl

end

structure CallParts.Stands (parts : CallParts) (call : LogicalCall) : Prop where
  id : parts.id = call.id
  name : parts.name = call.name
  arguments : call.arguments.Text parts.arguments

theorem proposedToolCall_eq {raw : RawCall} {call : LogicalCall} (id : raw.id = call.id)
    (name : raw.name = call.name) :
    proposedToolCall raw = (proposedArguments raw.arguments).map call.proposed := by
  have both : fits raw.id ∧ fits raw.name := by
    rw [id, name]
    exact ⟨call.idFits, call.nameFits⟩
  cases read : proposedArguments raw.arguments with
  | none => simp only [proposedToolCall, read, Option.bind_eq_bind, Option.bind_none, Option.map_none]
  | some arguments =>
    simp only [proposedToolCall, read, Option.bind_eq_bind, Option.bind_some, Option.map_some]
    rw [if_pos both, id, name]
    rfl

theorem toolCalls_of_forall₂ {read : Arguments → Option (List (String × Json))}
    {raws : List RawCall} {calls : List LogicalCall}
    (each : List.Forall₂ (fun raw call => raw.id = call.id ∧ raw.name = call.name ∧
      proposedArguments raw.arguments = read call.arguments) raws calls) :
    toolCalls raws = readCalls read calls := by
  induction each with
  | nil => rfl
  | @cons raw call raws calls first _ ih =>
    have head : proposedToolCall raw = (read call.arguments).map call.proposed := by
      rw [proposedToolCall_eq first.1 first.2.1, first.2.2]
    rw [readCalls_cons, ← ih, ← head]
    exact mapM_cons_bind proposedToolCall raw raws

/-- A content, and the chunk about the calls that were read. -/
def settled (content raw : String) (calls : Option (List ProposedToolCall)) : Outcome where
  content := content
  calls := calls.getD []
  finish := [calls.elim .error (terminalReason raw)]

theorem outcome_terminal (shown : Shown content chunks) (model raw : String)
    (rawCalls : List RawCall) (usage : List (String × Json)) :
    outcome (chunks ++ [terminalChunk model raw rawCalls usage]) =
      settled content raw (toolCalls rawCalls) := by
  rw [outcome_append, outcome_shown shown]
  unfold terminalChunk settled
  cases toolCalls rawCalls with
  | none => simp [outcome, errorChunk]
  | some calls => simp [outcome]

def lost (content : String) : Connection → Outcome
  | .closed => ⟨content, [], []⟩
  | .raised _ => ⟨content, [], [.error]⟩

theorem outcome_interrupted (shown : Shown content chunks) (model : String)
    (connection : Connection) :
    outcome (chunks ++ interrupted model connection) = lost content connection := by
  rw [outcome_append, outcome_shown shown]
  cases connection with
  | closed => simp [interrupted, lost, outcome]
  | raised code => simp [interrupted, lost, outcome, errorChunk]

theorem foldl_orElse {x start : String} {texts : List String}
    (only : ∀ text ∈ texts, text = "" ∨ text = x) (begun : start = "" ∨ start = x)
    (given : start = x ∨ x ∈ texts) :
    texts.foldl (fun last text => orElse text last) start = x := by
  induction texts generalizing start with
  | nil => exact given.resolve_right List.not_mem_nil
  | cons text texts ih =>
    have others : ∀ text ∈ texts, text = "" ∨ text = x := fun text member =>
      only text (List.mem_cons_of_mem _ member)
    rw [List.foldl_cons]
    unfold orElse
    split
    · rename_i empty
      refine ih others begun ?_
      rcases given with same | member
      · exact .inl same
      · rcases List.mem_cons.mp member with rfl | later
        · exact .inl (begun.elim (fun silent => silent.trans empty.symm) id)
        · exact .inr later
    · rename_i some_text
      have same := (only text List.mem_cons_self).resolve_left some_text
      exact ih others (.inr same) (.inl same)

theorem processChunk_shown (acc : OpenAIStreamAccumulator) (chunk : ChatChunk) :
    Shown chunk.content ((acc.processChunk chunk).1.flatMap passOn) := by
  obtain ⟨choice, usage⟩ := chunk
  cases choice with
  | none => exact Shown.nil
  | some choice =>
    simp only [OpenAIStreamAccumulator.processChunk, ChatChunk.content, Option.elim_some]
    split
    · rename_i silent
      rw [silent.1]
      exact Shown.nil
    · rw [List.flatMap_singleton]
      exact passOn_shown
        { deltaContent := choice.content
          deltaThinking := orElse choice.reasoningContent choice.thinking }

theorem processChunk_calls (acc : OpenAIStreamAccumulator) (chunk : ChatChunk) :
    (acc.processChunk chunk).2.accumulatedToolCalls =
      chunk.updates.foldl (KeyedFold.add CallParts.extend) acc.accumulatedToolCalls := by
  obtain ⟨choice, usage⟩ := chunk
  cases choice with
  | none | some choice =>
    simp only [OpenAIStreamAccumulator.processChunk]
    split <;> rfl

theorem processChunk_reason (acc : OpenAIStreamAccumulator) (chunk : ChatChunk) :
    (acc.processChunk chunk).2.lastFinishReason = orElse chunk.reason acc.lastFinishReason := by
  obtain ⟨choice, usage⟩ := chunk
  cases choice with
  | none | some choice =>
    simp only [OpenAIStreamAccumulator.processChunk]
    split <;> rfl

theorem streamOpenAI_append (model : String) (connection : Connection)
    (acc : OpenAIStreamAccumulator) (body : List ChatChunk) (lines : List ChatLine) :
    ∃ shown later, streamOpenAI model connection acc (body.map .data ++ lines) =
        shown ++ streamOpenAI model connection later lines ∧
      Shown (chatContent body) shown ∧
      later.accumulatedToolCalls =
        (chatUpdates body).foldl (KeyedFold.add CallParts.extend) acc.accumulatedToolCalls ∧
      later.lastFinishReason = (chatReasons body).getLast?.getD acc.lastFinishReason := by
  induction body generalizing acc with
  | nil => exact ⟨[], acc, rfl, Shown.nil, rfl, rfl⟩
  | cons chunk body ih =>
    obtain ⟨shown, later, run, content, calls, reason⟩ := ih (acc.processChunk chunk).2
    refine ⟨(acc.processChunk chunk).1.flatMap passOn ++ shown, later, ?_, ?_, ?_, ?_⟩
    · rw [List.append_assoc, ← run]
      rfl
    · rw [chatContent, List.map_cons, String.join_cons]
      exact (processChunk_shown acc chunk).append content
    · rw [calls, processChunk_calls, ← List.foldl_append]
      rfl
    · rw [reason, processChunk_reason]
      unfold chatReasons orElse
      rw [List.map_cons]
      by_cases silent : chunk.reason = ""
      · rw [List.filter_cons_of_neg (by simpa using silent), if_pos silent]
      · rw [List.filter_cons_of_pos (by simpa using silent), if_neg silent, List.getLast?_cons]
        rfl

theorem foldl_extend (parts : CallParts) (deltas : List ChatCallDelta) :
    deltas.foldl (fun parts delta => some (CallParts.extend parts delta)) (some parts) = some
      { id := (deltas.map ChatCallDelta.id).foldl (fun id given => orElse given id) parts.id
        name := parts.name ++ String.join (deltas.map ChatCallDelta.name)
        arguments := parts.arguments ++ String.join (deltas.map ChatCallDelta.arguments) } := by
  induction deltas generalizing parts with
  | nil => simp
  | cons delta deltas ih =>
    rw [List.foldl_cons, ih]
    simp only [CallParts.extend, Option.getD_some, List.map_cons, List.foldl_cons,
      String.join_cons, String.append_assoc]

theorem chatCall_total {deltas : List ChatCallDelta} {call : LogicalCall}
    (carries : ChatCall deltas call) : KeyedFold.total CallParts.extend deltas = some
      { id := call.id, name := call.name,
        arguments := String.join (deltas.map ChatCallDelta.arguments) } := by
  cases deltas with
  | nil =>
    obtain ⟨_, member, _⟩ := carries.given
    cases member
  | cons delta deltas =>
    have start : KeyedFold.total CallParts.extend (delta :: deltas) =
        deltas.foldl (fun parts delta => some (CallParts.extend parts delta))
          (some (CallParts.extend none delta)) := rfl
    have id : (deltas.map ChatCallDelta.id).foldl (fun id given => orElse given id)
        (CallParts.extend none delta).id = call.id := by
      have first : (CallParts.extend none delta).id = delta.id := by
        simp only [CallParts.extend, Option.getD_none, orElse]
        split <;> rfl
      refine foldl_orElse ?_ ?_ ?_
      · intro given member
        obtain ⟨other, later, rfl⟩ := List.mem_map.mp member
        exact carries.only other (List.mem_cons_of_mem _ later)
      · rw [first]
        exact carries.only delta List.mem_cons_self
      · obtain ⟨given, member, same⟩ := carries.given
        rcases List.mem_cons.mp member with rfl | later
        · exact .inl (first.trans same)
        · exact .inr (List.mem_map.mpr ⟨given, later, same⟩)
    rw [start, foldl_extend, id, ← carries.name]
    simp only [CallParts.extend, Option.getD_none, List.map_cons, String.join_cons,
      String.empty_append]

variable {r : LogicalResponse} {order : List LogicalCall}

theorem chatCarries_calls {body : List ChatChunk} {reason : String}
    (carries : ChatCarries r order body reason) {acc : OpenAIStreamAccumulator}
    (gathered : acc.accumulatedToolCalls = KeyedFold.fold CallParts.extend (chatUpdates body)) :
    toolCalls acc.finish.deltaToolCalls = readCalls Arguments.strict order := by
  have each : List.Forall₂ (fun (row : Int × CallParts) call => row.2.Stands call)
      acc.accumulatedToolCalls order := by
    rw [gathered]
    refine KeyedFold.forall₂_fold (carries.each.imp ?_)
    intro index call fragments
    exact ⟨_, chatCall_total fragments, rfl, rfl, fragments.arguments⟩
  refine toolCalls_of_forall₂ (List.forall₂_map_left_iff.mpr (each.imp ?_))
  intro row call stands
  exact ⟨stands.id, stands.name, strict_loaded stands.arguments⟩

variable {connection : Connection}

theorem chat_outcome {lines : List ChatLine} (stream : ChatStream r order lines connection)
    (model : String) : (∃ reason ∈ chatReason r, order.Perm r.calls ∧
      outcome (streamOpenAI model connection {} lines) =
        settled r.text reason (readCalls Arguments.strict order)) ∨ r.ending = .lost connection ∧
      outcome (streamOpenAI model connection {} lines) = lost r.text connection := by
  cases stream with
  | @done body reason rest connection carries ends =>
    obtain ⟨shown, later, run, content, calls, last⟩ :=
      streamOpenAI_append model connection {} body (.done :: rest)
    rw [carries.reason] at last
    rw [carries.content] at content
    refine .inl ⟨reason, ends, carries.all, ?_⟩
    rw [run, streamOpenAI, outcome_terminal content, chatCarries_calls carries calls]
    exact congrArg (fun raw => settled r.text raw _) last
  | @closed body reason carries ends =>
    obtain ⟨shown, later, run, content, calls, last⟩ := streamOpenAI_append model .closed {} body []
    rw [carries.reason] at last
    rw [carries.content] at content
    rw [List.append_nil] at run
    have given : later.lastFinishReason ≠ "" := by
      rw [last]
      have member := List.mem_of_getLast? carries.reason
      simpa using (List.mem_filter.mp member).2
    refine .inl ⟨reason, ends, carries.all, ?_⟩
    rw [run, streamOpenAI, if_neg given, outcome_terminal content, chatCarries_calls carries calls]
    exact congrArg (fun raw => settled r.text raw _) last
  | @lost body connection ending said silent =>
    obtain ⟨shown, later, run, content, calls, last⟩ :=
      streamOpenAI_append model connection {} body []
    rw [List.append_nil] at run
    rw [silent] at last
    rw [said] at content
    have nothing : later.lastFinishReason = "" := last
    refine .inr ⟨ending, ?_⟩
    rw [run, ← outcome_interrupted content model connection]
    cases connection with
    | closed => rw [streamOpenAI, if_pos nothing, interrupted]
    | raised code => rw [streamOpenAI, interrupted]

def AnthropicEvent.change : AnthropicEvent → Option BlockUpdate
  | .contentBlockStart _ block => some (.start block)
  | .contentBlockDelta _ delta => some (.delta delta)
  | _ => none

def AnthropicEvent.update : AnthropicEvent → Option (Int × BlockUpdate)
  | .contentBlockStart index block => some (index, .start block)
  | .contentBlockDelta index delta => some (index, .delta delta)
  | _ => none

def BlockUpdate.kind : BlockUpdate → String
  | .start block => block.kind
  | .delta change => change.kind

/-- The calls of the blocks that stop. -/
def gathered (acc : AnthropicStreamAccumulator) : List AnthropicEvent → List RawCall
  | [] => []
  | event :: events =>
    (acc.process event).1.flatMap StreamChunk.deltaToolCalls ++
      gathered (acc.process event).2 events

section
variable (acc : AnthropicStreamAccumulator)
include acc

theorem process_shown (event : AnthropicEvent) :
    Shown event.content ((acc.process event).1.flatMap passOn) := by
  cases event with
  | contentBlockDelta index delta =>
    cases delta with
    | text text =>
      change Shown text ([{ deltaContent := text }].flatMap passOn)
      rw [List.flatMap_singleton]
      exact passOn_shown { deltaContent := text }
    | inputJson partialJson | other kind => exact Shown.nil
  | contentBlockStop index =>
    simp only [AnthropicStreamAccumulator.process]
    split
    · split <;> exact Shown.nil
    · exact Shown.nil
  | messageStop | messageStart usage | contentBlockStart index block
  | messageDelta stopReason usage | other => exact Shown.nil

theorem process_blocks (event : AnthropicEvent) : (acc.process event).2.contentBlocks =
      event.update.toList.foldl (KeyedFold.add ContentBlock.update) acc.contentBlocks := by
  cases event with
  | _ => rfl

theorem process_reason (event : AnthropicEvent) :
    (acc.process event).2.lastStopReason = event.stopReason.getD acc.lastStopReason := by
  cases event with
  | _ => rfl

theorem process_unfinished {event : AnthropicEvent} (still : event.isStop = false) :
    (acc.process event).1.find? (fun chunk => chunk.finishReason != "") = none := by
  cases event with
  | messageStop => cases still
  | contentBlockDelta index delta =>
    cases delta with
    | _ => rfl
  | contentBlockStop index =>
    simp only [AnthropicStreamAccumulator.process]
    split
    · split <;> rfl
    · rfl
  | messageStart usage | contentBlockStart index block | messageDelta stopReason usage | other =>
    rfl

end

variable {body : List AnthropicEvent}

theorem streamAnthropic_append (model : String) (connection : Connection)
    (acc : AnthropicStreamAccumulator) (calls : List RawCall)
    (still : ∀ event ∈ body, event.isStop = false) (events : List AnthropicEvent) :
    ∃ shown later, streamAnthropic model connection acc calls (body ++ events) =
        shown ++ streamAnthropic model connection later (calls ++ gathered acc body) events ∧
      Shown (anthropicContent body) shown ∧
      later.lastStopReason =
        (body.filterMap AnthropicEvent.stopReason).getLast?.getD acc.lastStopReason := by
  induction body generalizing acc calls with
  | nil =>
    refine ⟨[], acc, ?_, Shown.nil, rfl⟩
    rw [gathered, List.append_nil]
    rfl
  | cons event body ih =>
    obtain ⟨shown, later, run, content, reason⟩ := ih (acc.process event).2
      (calls ++ (acc.process event).1.flatMap StreamChunk.deltaToolCalls)
      fun event member => still event (List.mem_cons_of_mem _ member)
    refine ⟨(acc.process event).1.flatMap passOn ++ shown, later, ?_, ?_, ?_⟩
    · rw [gathered, ← List.append_assoc, List.append_assoc _ shown, ← run, List.cons_append,
        streamAnthropic]
      simp only [process_unfinished acc (still event List.mem_cons_self)]
    · rw [anthropicContent, List.map_cons, String.join_cons]
      exact (process_shown acc event).append content
    · rw [reason, process_reason, List.filterMap_cons]
      cases event.stopReason with
      | none => rfl
      | some stopReason =>
        rw [List.getLast?_cons]
        rfl

theorem own_updates (index : Int) (body : List AnthropicEvent) :
    KeyedFold.own index (body.filterMap AnthropicEvent.update) =
      (body.filter fun event => event.index = some index).filterMap AnthropicEvent.change := by
  unfold KeyedFold.own
  rw [List.filterMap_filterMap, List.filterMap_filter]
  refine List.filterMap_congr ?_
  intro event _
  cases event with
  | contentBlockStart other block | contentBlockDelta other delta =>
    simp [AnthropicEvent.update, AnthropicEvent.index, AnthropicEvent.change]
  | contentBlockStop other => simp [AnthropicEvent.update, AnthropicEvent.change]
  | messageStart usage | messageDelta stopReason usage | messageStop | other => rfl

theorem kind_of_total {changes : List BlockUpdate} {block : ContentBlock}
    (made : KeyedFold.total ContentBlock.update changes = some block) :
    ∃ change ∈ changes, change.kind = block.kind := by
  induction changes using List.reverseRecOn generalizing block with
  | nil => cases made
  | append_singleton changes change ih =>
    rw [KeyedFold.total_append, List.foldl_cons, List.foldl_nil, Option.some.injEq] at made
    have last : change ∈ changes ++ [change] := List.mem_concat_self
    cases change with
    | start started => exact ⟨_, last, made ▸ rfl⟩
    | delta change =>
      cases before : KeyedFold.total ContentBlock.update changes with
      | none =>
        refine ⟨_, last, ?_⟩
        rw [← made, before]
        cases change with
        | _ => rfl
      | some old =>
        obtain ⟨first, member, kind⟩ := ih before
        refine ⟨first, List.mem_append_left _ member, ?_⟩
        rw [kind, ← made, before]
        cases change with
        | _ => rfl

theorem total_fragments (block : ContentBlock) (fragments : List String) :
    (fragments.map fun fragment => BlockUpdate.delta (.inputJson fragment)).foldl
        (fun block change => some (ContentBlock.update block change)) (some block) =
      some { block with partialJson := block.partialJson ++ String.join fragments } := by
  induction fragments generalizing block with
  | nil => simp
  | cons fragment fragments ih =>
    rw [List.map_cons, List.foldl_cons]
    refine (ih _).trans ?_
    simp only [String.join_cons, ← String.append_assoc, ContentBlock.update, Option.getD_some]

/-- The block of a call, once its fragments have come. -/
def LogicalCall.block (call : LogicalCall) (text : String) : ContentBlock where
  kind := "tool_use"
  id := call.id
  name := call.name
  partialJson := text

theorem block_toolCall {call : LogicalCall} (stands : call.arguments.Text text) :
    proposedArguments (call.block text).toolCall.arguments = call.arguments.lenient :=
  lenient_loaded stands

theorem eq_nil_of_append {α : Type*} {xs ys zs : List α} {x : α}
    (split : xs ++ x :: ys = zs ++ [x]) (fresh : x ∉ zs) : ys = [] ∧ xs = zs := by
  rcases List.eq_nil_or_concat ys with rfl | ⟨front, last, rfl⟩
  · exact ⟨rfl, (List.append_inj' split rfl).1⟩
  · have front_eq : xs ++ x :: front = zs := by
      rw [List.concat_eq_append, ← List.cons_append, ← List.append_assoc] at split
      exact (List.append_inj' split rfl).1
    exact absurd (front_eq ▸ List.mem_append_right xs List.mem_cons_self) fresh

variable {before later : List AnthropicEvent}

theorem block_at_stop {index : Int} {call : LogicalCall} (carries : ToolBlock body index call)
    (split : body = before ++ .contentBlockStop index :: later) : ∃ text, call.arguments.Text text ∧
      KeyedFold.total ContentBlock.update
        (KeyedFold.own index (before.filterMap AnthropicEvent.update)) = some (call.block text) := by
  obtain ⟨fragments, stands, events⟩ := carries
  refine ⟨String.join fragments, stands, ?_⟩
  rw [split, List.filter_append, List.filter_cons_of_pos (by simp [AnthropicEvent.index])] at events
  have whole := (eq_nil_of_append events (by simp)).2
  rw [own_updates, whole, List.filterMap_cons]
  have changes : (fragments.map fun fragment =>
      AnthropicEvent.contentBlockDelta index (.inputJson fragment)).filterMap
        AnthropicEvent.change =
      fragments.map fun fragment => BlockUpdate.delta (.inputJson fragment) := by
    rw [List.filterMap_map, ← List.filterMap_eq_map]
    rfl
  rw [changes]
  refine (total_fragments _ fragments).trans ?_
  simp [ContentBlock.update, LogicalCall.block]

theorem other_kind {indexes : List Int} {index : Int}
    (tools : ∀ event ∈ body, event.kind = some "tool_use" →
      ∃ index ∈ indexes, event.index = some index)
    (split : body = before ++ later) (unlisted : index ∉ indexes) {block : ContentBlock}
    (made : KeyedFold.total ContentBlock.update
      (KeyedFold.own index (before.filterMap AnthropicEvent.update)) = some block) :
    block.kind ≠ "tool_use" := by
  intro kind
  obtain ⟨change, member, same⟩ := kind_of_total made
  rw [own_updates] at member
  obtain ⟨event, filtered, changed⟩ := List.mem_filterMap.mp member
  obtain ⟨earlier, here⟩ := List.mem_filter.mp filtered
  have tool : event.kind = some "tool_use" := by
    rw [← kind, ← same]
    cases event with
    | contentBlockStart other started | contentBlockDelta other delta =>
      cases changed
      rfl
    | contentBlockStop other | messageStart usage | messageDelta stopReason usage | messageStop
    | other => cases changed
  obtain ⟨listed, member, at_index⟩ := tools event (split ▸ List.mem_append_left later earlier) tool
  rw [of_decide_eq_true here, Option.some.injEq] at at_index
  exact unlisted (at_index ▸ member)

theorem forall₂_left {α β : Type*} {R : α → β → Prop} {xs : List α} {ys : List β}
    (each : List.Forall₂ R xs ys) {x : α} (member : x ∈ xs) : ∃ y, R x y := by
  induction each with
  | nil => cases member
  | @cons head y xs ys first _ ih =>
    rcases List.mem_cons.mp member with rfl | later
    · exact ⟨y, first⟩
    · exact ih later

theorem gathered_stands {indexes : List Int} (carries : List.Forall₂ (ToolBlock body) indexes order)
    (tools : ∀ event ∈ body, event.kind = some "tool_use" →
      ∃ index ∈ indexes, event.index = some index)
    {acc : AnthropicStreamAccumulator} (split : body = before ++ later)
    (blocks : acc.contentBlocks = KeyedFold.fold ContentBlock.update
      (before.filterMap AnthropicEvent.update)) :
    ∃ rows : List (Int × RawCall), rows.map Prod.snd = gathered acc later ∧
      rows.map Prod.fst = (later.filterMap AnthropicEvent.stopped).filter (· ∈ indexes) ∧
      ∀ row ∈ rows, ∀ call, ToolBlock body row.1 call →
        row.2.id = call.id ∧ row.2.name = call.name ∧
          proposedArguments row.2.arguments = call.arguments.lenient := by
  induction later generalizing acc before with
  | nil => exact ⟨[], rfl, rfl, nofun⟩
  | cons event later ih =>
    have next : body = (before ++ [event]) ++ later := by
      rw [split, List.append_assoc, List.singleton_append]
    have after : (acc.process event).2.contentBlocks = KeyedFold.fold ContentBlock.update
        ((before ++ [event]).filterMap AnthropicEvent.update) := by
      rw [process_blocks, blocks, List.filterMap_append, KeyedFold.fold_append]
      cases event with
      | _ => rfl
    obtain ⟨rows, values, stops, each⟩ := ih next after
    have skip (stopped : event.stopped = none)
        (silent : (acc.process event).1.flatMap StreamChunk.deltaToolCalls = []) :
        ∃ rows : List (Int × RawCall), rows.map Prod.snd = gathered acc (event :: later) ∧
          rows.map Prod.fst =
            ((event :: later).filterMap AnthropicEvent.stopped).filter (· ∈ indexes) ∧
          ∀ row ∈ rows, ∀ call, ToolBlock body row.1 call →
            row.2.id = call.id ∧ row.2.name = call.name ∧
              proposedArguments row.2.arguments = call.arguments.lenient := by
      refine ⟨rows, ?_, ?_, each⟩
      · rw [values, gathered, silent, List.nil_append]
      · rw [stops, List.filterMap_cons, stopped]
    cases event with
    | contentBlockStop index =>
      have block_is : KeyedFold.get index acc.contentBlocks = KeyedFold.total ContentBlock.update
          (KeyedFold.own index (before.filterMap AnthropicEvent.update)) := by
        rw [blocks, KeyedFold.get_fold]
      by_cases listed : index ∈ indexes
      · obtain ⟨call, tool⟩ := forall₂_left carries listed
        obtain ⟨text, _, whole⟩ := block_at_stop tool split
        refine ⟨(index, (call.block text).toolCall) :: rows, ?_, ?_, ?_⟩
        · rw [List.map_cons, values, gathered]
          simp only [AnthropicStreamAccumulator.process, block_is, whole, LogicalCall.block, if_true,
            List.flatMap_singleton, List.singleton_append]
        · rw [List.map_cons, stops, List.filterMap_cons]
          simp only [AnthropicEvent.stopped]
          rw [List.filter_cons_of_pos (by simpa using listed)]
        · intro row member other carried
          rcases List.mem_cons.mp member with rfl | old
          · obtain ⟨given, stands, same⟩ := block_at_stop carried split
            rw [whole, Option.some.injEq] at same
            dsimp only
            rw [same]
            exact ⟨rfl, rfl, block_toolCall stands⟩
          · exact each row old other carried
      · refine ⟨rows, ?_, ?_, each⟩
        · rw [values, gathered]
          simp only [AnthropicStreamAccumulator.process]
          split
          · rename_i block stored
            rw [if_neg (other_kind tools split listed (block_is ▸ stored))]
            rfl
          · rfl
        · rw [stops, List.filterMap_cons]
          simp only [AnthropicEvent.stopped]
          rw [List.filter_cons_of_neg (by simpa using listed)]
    | contentBlockDelta index delta =>
      refine skip rfl ?_
      cases delta with
      | _ => rfl
    | messageStart usage | contentBlockStart index block | messageDelta stopReason usage
    | messageStop | other => exact skip rfl rfl

theorem anthropicCarries_calls {reason : String} (carries : AnthropicCarries r order body reason) :
    toolCalls (gathered {} body) = readCalls Arguments.lenient order := by
  obtain ⟨indexes, blocks, stops, tools⟩ := carries.each
  obtain ⟨rows, values, keys, each⟩ := gathered_stands blocks tools (List.nil_append body).symm
    (show ({} : AnthropicStreamAccumulator).contentBlocks = _ from rfl)
  rw [stops] at keys
  refine toolCalls_of_forall₂ ?_
  rw [← values, List.forall₂_map_left_iff]
  have carried : List.Forall₂ (fun (row : Int × RawCall) call => ToolBlock body row.1 call)
      rows order := by
    rw [← List.forall₂_map_left_iff (f := Prod.fst), keys]
    exact blocks
  exact ((List.forall₂_and_left rows order).mpr ⟨each, carried⟩).imp
    fun row call found => found.1 call found.2

theorem anthropic_outcome {events : List AnthropicEvent}
    (stream : AnthropicStream r order events connection) (model : String) :
    (∃ reason ∈ anthropicReason r, order.Perm r.calls ∧
      outcome (streamAnthropic model connection {} [] events) =
        settled r.text reason (readCalls Arguments.lenient order)) ∨ r.ending = .lost connection ∧
      outcome (streamAnthropic model connection {} [] events) = lost r.text connection := by
  cases stream with
  | @stopped body reason rest connection carries ends =>
    obtain ⟨shown, later, run, content, last⟩ :=
      streamAnthropic_append model connection {} [] carries.still (.messageStop :: rest)
    rw [carries.reason] at last
    rw [carries.content] at content
    have given : reason ≠ "" := by
      rintro rfl
      revert ends
      unfold anthropicReason
      split
      · cases r.calls.isEmpty with
        | _ => decide
      · decide
      · decide
      · exact List.not_mem_nil
    have finish : later.lastStopReason = reason := last
    refine .inl ⟨reason, ends, carries.all, ?_⟩
    have terminal : streamAnthropic model connection later (gathered {} body)
        (.messageStop :: rest) =
        [terminalChunk model reason (gathered {} body) later.lastUsage] := by
      have found : (later.process .messageStop).1.find? (fun chunk => chunk.finishReason != "") =
          some { finishReason := reason, usage := later.lastUsage } := by
        simp only [AnthropicStreamAccumulator.process, finish]
        rw [List.find?_cons_of_pos (by simpa using given)]
      rw [streamAnthropic]
      simp only [found]
      simp [AnthropicStreamAccumulator.process, passOn]
    rw [run, List.nil_append, terminal, outcome_terminal content, anthropicCarries_calls carries]
  | @lost body connection ending said still =>
    obtain ⟨shown, later, run, content, last⟩ :=
      streamAnthropic_append model connection {} [] still []
    rw [List.append_nil] at run
    rw [said] at content
    refine .inr ⟨ending, ?_⟩
    rw [run, streamAnthropic]
    exact outcome_interrupted content model connection

theorem processEvent_shown (acc : ResponsesStreamAccumulator) (event : ResponsesEvent) :
    Shown event.content ((acc.processEvent event).1.flatMap passOn) := by
  cases event with
  | outputTextDelta delta =>
    simp only [ResponsesStreamAccumulator.processEvent, ResponsesEvent.content]
    split
    · rename_i empty
      rw [empty]
      exact Shown.nil
    · rw [List.flatMap_singleton]
      exact passOn_shown { deltaContent := delta }
  | reasoningSummaryTextDelta delta =>
    simp only [ResponsesStreamAccumulator.processEvent, ResponsesEvent.content]
    split
    · exact Shown.nil
    · rw [List.flatMap_singleton]
      exact passOn_shown { deltaThinking := delta }
  | outputItemAdded index callId name => exact Shown.nil
  | functionCallArgumentsDelta index delta => exact Shown.nil
  | functionCallArgumentsDone index arguments => exact Shown.nil
  | completed usage | incomplete reason | failed | other => exact Shown.nil

theorem processEvent_calls (acc : ResponsesStreamAccumulator) (event : ResponsesEvent) :
    (acc.processEvent event).2.calls =
      event.update.toList.foldl (KeyedFold.add CallParts.update) acc.calls := by
  cases event with
  | _ => rfl

theorem processEvent_flags (acc : ResponsesStreamAccumulator) {event : ResponsesEvent}
    (still : event.terminal = false) : (acc.processEvent event).2.failed = acc.failed ∧
      (acc.processEvent event).2.incompleteReason = acc.incompleteReason := by
  cases event with
  | completed usage | incomplete reason | failed => cases still
  | _ => exact ⟨rfl, rfl⟩

theorem streamResponses_append (model : String) (connection : Connection)
    (acc : ResponsesStreamAccumulator) {body : List ResponsesEvent}
    (still : ∀ event ∈ body, event.terminal = false) (events : List ResponsesEvent) :
    ∃ shown later, streamResponses model connection acc (body ++ events) =
        shown ++ streamResponses model connection later events ∧
      Shown (responsesContent body) shown ∧
      later.calls = (responsesUpdates body).foldl (KeyedFold.add CallParts.update) acc.calls ∧
      later.failed = acc.failed ∧ later.incompleteReason = acc.incompleteReason := by
  induction body generalizing acc with
  | nil => exact ⟨[], acc, rfl, Shown.nil, rfl, rfl, rfl⟩
  | cons event body ih =>
    have quiet := still event List.mem_cons_self
    obtain ⟨failed, reason⟩ := processEvent_flags acc quiet
    obtain ⟨shown, later, run, content, calls, same⟩ := ih (acc.processEvent event).2
      fun event member => still event (List.mem_cons_of_mem _ member)
    refine ⟨(acc.processEvent event).1.flatMap passOn ++ shown, later, ?_, ?_, ?_, ?_⟩
    · rw [List.append_assoc, ← run, List.cons_append, streamResponses]
      simp only [quiet, Bool.false_eq_true, if_false]
    · rw [responsesContent, List.map_cons, String.join_cons]
      exact (processEvent_shown acc event).append content
    · rw [calls, processEvent_calls, ← List.foldl_append, responsesUpdates, responsesUpdates,
        List.filterMap_cons]
      cases event.update with
      | none | some update => rfl
    · rw [← failed, ← reason]
      exact same

def CallUpdate.givenId : CallUpdate → String
  | .added callId _ => callId
  | _ => ""

def CallUpdate.givenName : CallUpdate → String
  | .added _ name => name
  | _ => ""

def CallUpdate.extend (arguments : String) : CallUpdate → String
  | .added _ _ => arguments
  | .argumentsDelta delta => arguments ++ delta
  | .argumentsDone whole => whole.getD arguments

theorem foldl_update (parts : CallParts) (updates : List CallUpdate) :
    updates.foldl (fun parts update => some (CallParts.update parts update)) (some parts) = some
      { id := (updates.map CallUpdate.givenId).foldl (fun id given => orElse given id) parts.id
        name :=
          (updates.map CallUpdate.givenName).foldl (fun name given => orElse given name) parts.name
        arguments := updates.foldl CallUpdate.extend parts.arguments } := by
  induction updates generalizing parts with
  | nil => rfl
  | cons update updates ih =>
    rw [List.foldl_cons, ih]
    cases update with
    | added callId name | argumentsDelta delta | argumentsDone arguments => rfl

theorem foldl_fragments {before : List CallUpdate}
    (open_arguments : ∀ arguments, .argumentsDone arguments ∉ before) (start : String) :
    before.foldl CallUpdate.extend start =
      start ++ String.join (before.map CallUpdate.fragment) := by
  induction before generalizing start with
  | nil => simp
  | cons update before ih =>
    have others : ∀ arguments, .argumentsDone arguments ∉ before := fun arguments member =>
      open_arguments arguments (List.mem_cons_of_mem _ member)
    rw [List.foldl_cons, ih others, List.map_cons, String.join_cons, ← String.append_assoc]
    cases update with
    | added callId name => simp only [CallUpdate.extend, CallUpdate.fragment, String.append_empty]
    | argumentsDelta delta => rfl
    | argumentsDone arguments => exact absurd List.mem_cons_self (open_arguments arguments)

theorem foldl_done {after : List CallUpdate} (closed : ∀ delta, .argumentsDelta delta ∉ after)
    (same : ∀ whole, .argumentsDone (some whole) ∈ after → whole = text) {start : String}
    (given : start = text ∨ .argumentsDone (some text) ∈ after) :
    after.foldl CallUpdate.extend start = text := by
  induction after generalizing start with
  | nil => exact given.resolve_right List.not_mem_nil
  | cons update after ih =>
    rw [List.foldl_cons]
    refine ih (fun delta member => closed delta (List.mem_cons_of_mem _ member))
      (fun whole member => same whole (List.mem_cons_of_mem _ member)) ?_
    cases update with
    | added callId name =>
      rcases given with begun | member
      · exact .inl begun
      · rcases List.mem_cons.mp member with here | later
        · cases here
        · exact .inr later
    | argumentsDelta delta => exact absurd List.mem_cons_self (closed delta)
    | argumentsDone whole =>
      cases whole with
      | some whole => exact .inl (same whole List.mem_cons_self)
      | none =>
        rcases given with begun | member
        · exact .inl begun
        · rcases List.mem_cons.mp member with here | later
          · cases here
          · exact .inr later

theorem responsesCall_total {updates : List CallUpdate} {call : LogicalCall}
    (carries : ResponsesCall updates call) :
    ∃ parts, KeyedFold.total CallParts.update updates = some parts ∧ parts.Stands call := by
  obtain ⟨text, stands, before, after, parts, open_arguments, closed, same, given⟩ :=
    carries.arguments
  have arguments : updates.foldl CallUpdate.extend "" = text := by
    rw [parts, List.foldl_append, foldl_fragments open_arguments, String.empty_append]
    exact foldl_done closed same given
  have id : (updates.map CallUpdate.givenId).foldl (fun id given => orElse given id) "" =
      call.id := by
    refine foldl_orElse ?_ (.inl rfl) ?_
    · intro given member
      obtain ⟨update, listed, rfl⟩ := List.mem_map.mp member
      cases update with
      | added callId name => exact (carries.only callId name listed).1
      | argumentsDelta delta | argumentsDone whole => exact .inl rfl
    · obtain ⟨name, listed⟩ := carries.id
      exact .inr (List.mem_map.mpr ⟨_, listed, rfl⟩)
  have name : (updates.map CallUpdate.givenName).foldl (fun name given => orElse given name) "" =
      call.name := by
    refine foldl_orElse ?_ (.inl rfl) ?_
    · intro given member
      obtain ⟨update, listed, rfl⟩ := List.mem_map.mp member
      cases update with
      | added callId name => exact (carries.only callId name listed).2
      | argumentsDelta delta | argumentsDone whole => exact .inl rfl
    · obtain ⟨id, listed⟩ := carries.name
      exact .inr (List.mem_map.mpr ⟨_, listed, rfl⟩)
  have start : KeyedFold.total CallParts.update updates =
      updates.foldl (fun parts update => some (CallParts.update parts update)) (some {}) := by
    cases updates with
    | nil =>
      obtain ⟨_, listed⟩ := carries.id
      cases listed
    | cons update updates => rfl
  refine ⟨_, start.trans (foldl_update {} updates), id, name, ?_⟩
  dsimp only
  rw [arguments]
  exact stands

theorem responsesCarries_calls {body : List ResponsesEvent}
    (carries : ResponsesCarries r order body) {acc : ResponsesStreamAccumulator}
    (gathered : acc.calls = KeyedFold.fold CallParts.update (responsesUpdates body)) :
    toolCalls acc.finish.deltaToolCalls = readCalls Arguments.strict order ∧
      (acc.toolCalls = [] ↔ r.calls = []) := by
  have each : List.Forall₂ (fun (row : Int × CallParts) call => row.2.Stands call)
      (acc.calls.insertionSort fun a b => a.1 ≤ b.1) order := by
    rw [gathered]
    refine KeyedFold.forall₂_sorted (· ≤ ·) (carries.each.imp ?_)
    intro index call updates
    exact responsesCall_total updates
  have parts : List.Forall₂ CallParts.Stands
      ((acc.calls.insertionSort fun a b => a.1 ≤ b.1).map Prod.snd) order :=
    List.forall₂_map_left_iff.mpr each
  have kept : acc.toolCalls = (acc.calls.insertionSort fun a b => a.1 ≤ b.1).map Prod.snd := by
    refine List.filter_eq_self.mpr ?_
    intro call member
    obtain ⟨logical, stands⟩ := forall₂_left parts member
    have named : call.name ≠ "" := by
      intro empty
      have fit := logical.nameFits
      rw [← stands.name, empty] at fit
      revert fit
      decide
    simp [named]
  refine ⟨toolCalls_of_forall₂ ?_, ?_⟩
  · refine List.forall₂_map_left_iff.mpr ?_
    rw [kept]
    refine parts.imp ?_
    intro parts call stands
    refine ⟨stands.id, stands.name, ?_⟩
    rw [← strict_loaded stands.arguments]
    dsimp only
    split
    · rename_i empty
      rw [empty, loadedArguments, loads_empty, Option.getD_none]
    · rfl
  · rw [kept, ← List.length_eq_zero_iff, parts.length_eq, carries.all.length_eq,
      List.length_eq_zero_iff]

theorem processEvent_last (acc : ResponsesStreamAccumulator) (fresh : acc.incompleteReason = "")
    {ending : ResponseEnding} {last : ResponsesEvent} (ends : ending.Last last) :
    last.terminal = true ∧ (acc.processEvent last).1 = [] ∧
      (acc.processEvent last).2.calls = acc.calls ∧
      (acc.processEvent last).2.failed = acc.failed ∧
      ((acc.processEvent last).2.incompleteReason = "max_output_tokens" ↔ ending = .truncated) := by
  cases last with
  | completed usage =>
    cases ending with
    | finished =>
      refine ⟨rfl, rfl, rfl, rfl, ?_⟩
      simp [ResponsesStreamAccumulator.processEvent, fresh]
    | truncated | refused | lost connection => cases ends
  | incomplete reason =>
    cases ending with
    | truncated => exact ⟨rfl, rfl, rfl, rfl, fun _ => rfl, fun _ => ends⟩
    | refused =>
      change reason = "content_filter" at ends
      rw [ends]
      exact ⟨rfl, rfl, rfl, rfl, by simp [ResponsesStreamAccumulator.processEvent]⟩
    | finished | lost connection => cases ends
  | outputTextDelta delta | reasoningSummaryTextDelta delta | outputItemAdded index callId name =>
    cases ending <;> cases ends
  | functionCallArgumentsDelta index delta => cases ending <;> cases ends
  | functionCallArgumentsDone index arguments => cases ending <;> cases ends
  | failed | other => cases ending <;> cases ends

/-- The finish reason of the accumulator for a response that was not lost. -/
def responsesReason (r : LogicalResponse) : String :=
  if r.calls ≠ [] then "tool_calls"
  else
    match r.ending with
    | .truncated => "length"
    | _ => "stop"

theorem responses_outcome {events : List ResponsesEvent}
    (stream : ResponsesStream r order events connection) (model : String) :
    (order.Perm r.calls ∧ (∀ connection, r.ending ≠ .lost connection) ∧
      outcome (streamResponses model connection {} events) =
        settled r.text (responsesReason r) (readCalls Arguments.strict order)) ∨
    r.ending = .lost connection ∧
      outcome (streamResponses model connection {} events) = lost r.text connection := by
  cases stream with
  | @ended body last rest connection carries ends =>
    obtain ⟨shown, later, run, content, calls, failed, reason⟩ :=
      streamResponses_append model connection {} carries.still (last :: rest)
    rw [carries.content] at content
    obtain ⟨terminal, silent, kept, unfailed, limit⟩ := processEvent_last later reason ends
    obtain ⟨read, empty⟩ := responsesCarries_calls carries (kept.trans calls)
    have raw : (later.processEvent last).2.finish.finishReason = responsesReason r := by
      simp only [ResponsesStreamAccumulator.finish, unfailed, failed, Bool.false_eq_true, if_false,
        ne_eq, empty, responsesReason]
      by_cases calls : r.calls = []
      · rw [if_neg (not_not_intro calls), if_neg (not_not_intro calls)]
        have other (short : r.ending ≠ .truncated) :
            (later.processEvent last).2.incompleteReason ≠ "max_output_tokens" :=
          fun long => short (limit.mp long)
        cases ending : r.ending with
        | truncated => rw [if_pos (limit.mpr ending)]
        | finished | refused | lost connection => rw [if_neg (other (ending ▸ by simp))]
      · rw [if_pos calls, if_pos calls]
    refine .inl ⟨carries.all, ?_, ?_⟩
    · intro connection ending
      rw [ending] at ends
      cases last with
      | _ => exact ends
    · rw [run, streamResponses]
      simp only [terminal, if_true, silent, List.flatMap_nil, List.nil_append]
      rw [outcome_terminal content, read, raw]
  | @lost body connection ending said still =>
    obtain ⟨shown, later, run, content, _⟩ := streamResponses_append model connection {} still []
    rw [List.append_nil] at run
    rw [said] at content
    refine .inr ⟨ending, ?_⟩
    rw [run, streamResponses]
    exact outcome_interrupted content model connection

end Knoa.Models
