import Knoa.Models.StreamReading

/-!
# When the three formats agree

A response gives the same over the three formats when all of its calls come with an object, and
their order and its end leave no doubt.
-/
namespace Knoa.Models

/-- The text is JSON, but neither an object nor a string that holds one. -/
def Arguments.Rejected : Arguments → Prop
  | .broken text _ => ∃ value, Json.loads text.toList = some value ∧ proposedArguments value = none
  | _ => False

/-- The condition on a response, and on the orders of its calls over the three formats. -/
def Agreeable (r : LogicalResponse) (chat anthropic responses : List LogicalCall) : Prop :=
  (∃ connection, r.ending = .lost connection) ∨
  (∃ call ∈ r.calls, call.arguments.Rejected) ∨
  (∀ call ∈ r.calls, ∃ fields, call.arguments = .object fields) ∧ r.ending ≠ .refused ∧
    (r.ending = .truncated → r.calls = []) ∧
    chat.map LogicalCall.executable = anthropic.map LogicalCall.executable ∧
    anthropic.map LogicalCall.executable = responses.map LogicalCall.executable

def Arguments.fields : Arguments → List (String × Json)
  | .object fields => fields
  | _ => []

def LogicalCall.proposal (call : LogicalCall) : ProposedToolCall :=
  call.proposed call.arguments.fields

variable {arguments : Arguments}

theorem lenient_of_sound (sound : arguments.isBroken = false) :
    arguments.lenient = some arguments.fields := by
  cases arguments with
  | object fields | absent => rfl
  | broken text other => cases sound

theorem executable_of_sound {call : LogicalCall} (sound : call.arguments.isBroken = false) :
    call.executable = some call.proposal := by
  obtain ⟨id, name, arguments, idFits, nameFits⟩ := call
  cases arguments with
  | object fields | absent => rfl
  | broken text other => cases sound

theorem executable_of_broken {call : LogicalCall} (broken : call.arguments.isBroken = true) :
    call.executable = none := by
  obtain ⟨id, name, arguments, idFits, nameFits⟩ := call
  cases arguments with
  | object fields | absent => cases broken
  | broken text other => rfl

theorem strict_of_rejected (rejected : arguments.Rejected) : arguments.strict = none := by
  cases arguments with
  | object fields => cases rejected
  | absent => rfl
  | broken text other =>
    obtain ⟨value, loaded, unread⟩ := rejected
    rw [Arguments.strict, loadedArguments, loaded, Option.getD_some, unread]

theorem lenient_eq_none_iff : arguments.lenient = none ↔ arguments.Rejected := by
  cases arguments with
  | object fields | absent => exact iff_of_false (Option.some_ne_none _) id
  | broken text other =>
    rw [Arguments.lenient, Arguments.Rejected]
    by_cases empty : text = ""
    · rw [if_pos empty, empty, loads_empty]
      constructor
      · rintro ⟨⟩
      · rintro ⟨_, none, _⟩
        cases none
    · rw [if_neg empty]
      cases Json.loads text.toList with
      | none =>
        constructor
        · rintro ⟨⟩
        · rintro ⟨_, none, _⟩
          cases none
      | some value =>
        constructor
        · intro unread
          exact ⟨value, rfl, unread⟩
        · rintro ⟨other, same, unread⟩
          cases same
          exact unread

/-- The finish reason over chat completions and Anthropic. -/
def LogicalResponse.finish (r : LogicalResponse) : FinishReason :=
  match r.ending with
  | .finished => if r.calls.isEmpty then .stop else .toolCalls
  | .truncated => .length
  | _ => .error

def LogicalResponse.responsesFinish (r : LogicalResponse) : FinishReason :=
  if r.calls.isEmpty then
    match r.ending with
    | .truncated => .length
    | _ => .stop
  else .toolCalls

def LogicalResponse.Means (r : LogicalResponse) (raw : String) : Prop :=
  match r.ending with
  | .finished => finishReason raw = .stop ∨ r.calls ≠ [] ∧ finishReason raw = .toolCalls
  | .truncated => finishReason raw = .length
  | .refused => finishReason raw = .error
  | .lost _ => False

variable {raw : String} {calls : List ProposedToolCall}

theorem terminalReason_of (other : finishReason raw ≠ .stop) :
    terminalReason raw calls = finishReason raw :=
  if_neg fun both => other both.2

theorem terminalReason_stop (raw_is : finishReason raw = .stop) :
    terminalReason raw calls = if calls = [] then .stop else .toolCalls := by
  unfold terminalReason
  split
  · rename_i both
    rw [if_neg both.1]
  · rename_i single
    rw [if_pos (of_not_not fun some_call => single ⟨some_call, raw_is⟩), raw_is]

variable {r : LogicalResponse}

theorem finish_of_means (means : r.Means raw) (same : calls = [] ↔ r.calls = []) :
    terminalReason raw calls = r.finish := by
  unfold LogicalResponse.Means at means
  unfold LogicalResponse.finish
  cases ending : r.ending with
  | finished =>
    rw [ending] at means
    simp only [List.isEmpty_iff]
    rcases means with stop | ⟨some_call, tools⟩
    · rw [terminalReason_stop stop]
      by_cases empty : calls = []
      · rw [if_pos empty, if_pos (same.mp empty)]
      · rw [if_neg empty, if_neg fun none => empty (same.mpr none)]
    · rw [terminalReason_of (tools ▸ by decide), tools, if_neg some_call]
  | truncated | refused =>
    rw [ending] at means
    rw [terminalReason_of (means ▸ by decide), means]
  | lost connection =>
    rw [ending] at means
    exact means.elim

theorem means_of_finished (ending : r.ending = .finished) {plain : List String} {tool : String}
    (stops : ∀ raw ∈ plain, finishReason raw = .stop) (tools : finishReason tool = .toolCalls)
    (given : raw ∈ plain ++ if r.calls.isEmpty then [] else [tool]) : r.Means raw := by
  unfold LogicalResponse.Means
  rw [ending]
  rcases List.mem_append.mp given with stop | rest
  · exact .inl (stops raw stop)
  · split at rest
    · cases rest
    · rename_i some_call
      rw [List.mem_singleton.mp rest]
      exact .inr ⟨fun none => some_call (none ▸ rfl), tools⟩

theorem means_of_truncated (ending : r.ending = .truncated) (reads : finishReason raw = .length) :
    r.Means raw := by
  unfold LogicalResponse.Means
  rw [ending]
  exact reads

theorem means_of_refused (ending : r.ending = .refused) (reads : finishReason raw = .error) :
    r.Means raw := by
  unfold LogicalResponse.Means
  rw [ending]
  exact reads

variable {reason : String}

theorem chat_means (ends : reason ∈ chatReason r) : r.Means reason := by
  unfold chatReason at ends
  cases ending : r.ending with
  | finished =>
    rw [ending] at ends
    exact means_of_finished ending (by decide +kernel) (by decide +kernel) ends
  | truncated =>
    rw [ending] at ends
    exact means_of_truncated ending (List.mem_singleton.mp ends ▸ by decide +kernel)
  | refused =>
    rw [ending] at ends
    exact means_of_refused ending (List.mem_singleton.mp ends ▸ by decide +kernel)
  | lost connection =>
    rw [ending] at ends
    cases ends

theorem anthropic_means (ends : reason ∈ anthropicReason r) : r.Means reason := by
  unfold anthropicReason at ends
  cases ending : r.ending with
  | finished =>
    rw [ending] at ends
    exact means_of_finished ending (by decide +kernel) (by decide +kernel) ends
  | truncated =>
    rw [ending] at ends
    exact means_of_truncated ending (List.mem_singleton.mp ends ▸ by decide +kernel)
  | refused =>
    rw [ending] at ends
    exact means_of_refused ending (List.mem_singleton.mp ends ▸ by decide +kernel)
  | lost connection =>
    rw [ending] at ends
    cases ends

theorem responses_finish (same : calls = [] ↔ r.calls = []) :
    terminalReason (responsesReason r) calls = r.responsesFinish := by
  have stop : finishReason "stop" = .stop := by decide +kernel
  have length : finishReason "length" = .length := by decide +kernel
  have tools : finishReason "tool_calls" = .toolCalls := by decide +kernel
  unfold responsesReason LogicalResponse.responsesFinish
  simp only [List.isEmpty_iff]
  by_cases empty : r.calls = []
  · rw [if_neg (not_not_intro empty), if_pos empty]
    cases r.ending with
    | truncated => rw [terminalReason_of (length ▸ by decide), length]
    | finished | refused | lost connection => rw [terminalReason_stop stop, if_pos (same.mpr empty)]
  · rw [if_pos empty, if_neg empty, terminalReason_of (tools ▸ by decide), tools]

theorem finish_eq_iff (kept : ∀ connection, r.ending ≠ .lost connection) :
    r.finish = r.responsesFinish ↔
      r.ending ≠ .refused ∧ (r.ending = .truncated → r.calls = []) := by
  unfold LogicalResponse.finish LogicalResponse.responsesFinish
  cases ending : r.ending with
  | finished => simp
  | truncated | refused => by_cases empty : r.calls = [] <;> simp [empty]
  | lost connection => exact absurd ending (kept connection)

theorem settled_none (content raw : String) : settled content raw none = ⟨content, [], [.error]⟩ :=
  rfl

section
variable {r : LogicalResponse} {chatOrder anthropicOrder responsesOrder : List LogicalCall}
  {chatRaw anthropicRaw : String}

theorem readCalls_all {read : Arguments → Option (List (String × Json))} {order : List LogicalCall}
    (all : ∀ call ∈ order, read call.arguments = some call.arguments.fields) :
    readCalls read order = some (order.map LogicalCall.proposal) :=
  readCalls_eq_some read all

theorem executable_all (sound : ∀ call ∈ r.calls, call.arguments.isBroken = false) :
    r.calls.filterMap LogicalCall.executable = r.calls.map LogicalCall.proposal := by
  rw [← List.filterMap_eq_map]
  exact List.filterMap_congr fun call member => executable_of_sound (sound call member)

theorem disagree_of_broken (all : anthropicOrder.Perm r.calls)
    (taken : ∀ call ∈ r.calls, ¬ call.arguments.Rejected)
    (broken : ∃ call ∈ r.calls, call.arguments.isBroken = true) (chat responses : Outcome) :
    ¬ Agree r chat
      (settled r.text anthropicRaw (readCalls Arguments.lenient anthropicOrder)) responses := by
  intro agree
  have each : ∀ call ∈ anthropicOrder,
      call.arguments.lenient = some (call.arguments.lenient.getD []) := by
    intro call member
    cases lenient : call.arguments.lenient with
    | none => exact absurd (lenient_eq_none_iff.mp lenient) (taken call (all.mem_iff.mp member))
    | some fields => rfl
  have read := readCalls_eq_some Arguments.lenient each
  have sound := (agree.sound _ (List.mem_cons_of_mem _ List.mem_cons_self)).length_le
  obtain ⟨call, member, is_broken⟩ := broken
  have fewer : (r.calls.filterMap LogicalCall.executable).length < r.calls.length :=
    List.length_filterMap_lt_length_iff_exists.mpr ⟨call, member, by
      rw [executable_of_broken is_broken]⟩
  rw [read] at sound
  simp only [settled, Option.getD_some, List.length_map] at sound
  rw [all.length_eq] at sound
  omega

theorem disagree_of_absent (chatAll : chatOrder.Perm r.calls)
    (anthropicAll : anthropicOrder.Perm r.calls)
    (sound : ∀ call ∈ r.calls, call.arguments.isBroken = false)
    (absent : ∃ call ∈ r.calls, call.arguments = .absent) (responses : Outcome) :
    ¬ Agree r (settled r.text chatRaw (readCalls Arguments.strict chatOrder))
      (settled r.text anthropicRaw (readCalls Arguments.lenient anthropicOrder)) responses := by
  intro agree
  obtain ⟨call, member, is_absent⟩ := absent
  have unread := readCalls_eq_none Arguments.strict (chatAll.mem_iff.mpr member)
    (is_absent ▸ rfl : call.arguments.strict = none)
  have read := readCalls_all fun call member =>
    lenient_of_sound (sound call (anthropicAll.mem_iff.mp member))
  have same := congrArg Outcome.calls (agree.same sound).1
  rw [unread, read] at same
  have empty : anthropicOrder = [] := List.map_eq_nil_iff.mp same.symm
  rw [empty] at anthropicAll
  exact List.not_mem_nil (anthropicAll.mem_iff.mpr member)

theorem agree_of_rejected (chatAll : chatOrder.Perm r.calls)
    (anthropicAll : anthropicOrder.Perm r.calls) (responsesAll : responsesOrder.Perm r.calls)
    (rejected : ∃ call ∈ r.calls, call.arguments.Rejected) (responsesRaw : String) :
    Agree r (settled r.text chatRaw (readCalls Arguments.strict chatOrder))
      (settled r.text anthropicRaw (readCalls Arguments.lenient anthropicOrder))
      (settled r.text responsesRaw (readCalls Arguments.strict responsesOrder)) := by
  obtain ⟨call, member, rejected⟩ := rejected
  rw [readCalls_eq_none Arguments.strict (chatAll.mem_iff.mpr member) (strict_of_rejected rejected),
    readCalls_eq_none Arguments.lenient (anthropicAll.mem_iff.mpr member)
      (lenient_eq_none_iff.mpr rejected),
    readCalls_eq_none Arguments.strict (responsesAll.mem_iff.mpr member)
      (strict_of_rejected rejected), settled_none, settled_none, settled_none]
  refine ⟨fun _ => ⟨rfl, rfl⟩, ?_⟩
  intro yielded listed
  simp only [List.mem_cons, List.not_mem_nil, or_false, or_self] at listed
  rw [listed]
  exact List.nil_subperm

theorem agree_iff_of_objects (chatAll : chatOrder.Perm r.calls)
    (anthropicAll : anthropicOrder.Perm r.calls) (responsesAll : responsesOrder.Perm r.calls)
    (kept : ∀ connection, r.ending ≠ .lost connection)
    (chat : r.Means chatRaw) (anthropic : r.Means anthropicRaw)
    (objects : ∀ call ∈ r.calls, ∃ fields, call.arguments = .object fields) :
    Agree r (settled r.text chatRaw (readCalls Arguments.strict chatOrder))
        (settled r.text anthropicRaw (readCalls Arguments.lenient anthropicOrder))
        (settled r.text (responsesReason r) (readCalls Arguments.strict responsesOrder)) ↔
      (r.ending ≠ .refused ∧ (r.ending = .truncated → r.calls = [])) ∧
        chatOrder.map LogicalCall.executable = anthropicOrder.map LogicalCall.executable ∧
        anthropicOrder.map LogicalCall.executable = responsesOrder.map LogicalCall.executable := by
  have strict : ∀ call ∈ r.calls, call.arguments.strict = some call.arguments.fields := by
    intro call member
    obtain ⟨fields, object⟩ := objects call member
    rw [object]
    rfl
  have sound : ∀ call ∈ r.calls, call.arguments.isBroken = false := by
    intro call member
    obtain ⟨fields, object⟩ := objects call member
    rw [object]
    rfl
  have executable {order : List LogicalCall} (all : order.Perm r.calls) :
      order.map LogicalCall.executable = (order.map LogicalCall.proposal).map some := by
    rw [List.map_map]
    exact List.map_congr_left fun call member =>
      executable_of_sound (sound call (all.mem_iff.mp member))
  have empty {order : List LogicalCall} (all : order.Perm r.calls) :
      order.map LogicalCall.proposal = [] ↔ r.calls = [] := by
    rw [List.map_eq_nil_iff, ← List.length_eq_zero_iff, all.length_eq, List.length_eq_zero_iff]
  rw [readCalls_all fun call member => strict call (chatAll.mem_iff.mp member),
    readCalls_all fun call member => lenient_of_sound (sound call (anthropicAll.mem_iff.mp member)),
    readCalls_all fun call member => strict call (responsesAll.mem_iff.mp member),
    executable chatAll, executable anthropicAll, executable responsesAll,
    (List.map_injective_iff.mpr (Option.some_injective _)).eq_iff,
    (List.map_injective_iff.mpr (Option.some_injective _)).eq_iff, ← finish_eq_iff kept]
  simp only [settled, Option.getD_some, Option.elim_some, finish_of_means chat (empty chatAll),
    finish_of_means anthropic (empty anthropicAll), responses_finish (empty responsesAll)]
  constructor
  · intro agree
    obtain ⟨first, second⟩ := agree.same sound
    simp only [Outcome.mk.injEq, true_and, List.cons.injEq, and_true] at first second
    exact ⟨second.2, first, second.1⟩
  · rintro ⟨finish, first, second⟩
    refine ⟨fun _ => ?_, ?_⟩
    · rw [first, second, finish]
      exact ⟨rfl, rfl⟩
    · have within {order : List LogicalCall} (all : order.Perm r.calls) :
          (order.map LogicalCall.proposal).Subperm (r.calls.filterMap LogicalCall.executable) := by
        rw [executable_all sound]
        exact (all.map _).subperm
      intro yielded listed
      simp only [List.mem_cons, List.not_mem_nil, or_false] at listed
      rcases listed with rfl | rfl | rfl
      · exact within chatAll
      · exact within anthropicAll
      · exact within responsesAll

/-- The streams of a response agree exactly when it is agreeable. -/
theorem streams_agree_iff {lines : List ChatLine} {anthropicEvents : List AnthropicEvent}
    {responsesEvents : List ResponsesEvent} {first second third : Connection}
    (chat : ChatStream r chatOrder lines first)
    (anthropic : AnthropicStream r anthropicOrder anthropicEvents second)
    (responses : ResponsesStream r responsesOrder responsesEvents third) (model : String) :
    Agree r (outcome (streamOpenAI model first {} lines))
        (outcome (streamAnthropic model second {} [] anthropicEvents))
        (outcome (streamResponses model third {} responsesEvents)) ↔
      Agreeable r chatOrder anthropicOrder responsesOrder := by
  rcases responses_outcome responses model with ⟨responsesAll, kept, responsesIs⟩ | ⟨ending, responsesIs⟩
  · obtain ⟨chatRaw, chatEnds, chatAll, chatIs⟩ := (chat_outcome chat model).resolve_right
      fun gone => kept first gone.1
    obtain ⟨anthropicRaw, anthropicEnds, anthropicAll, anthropicIs⟩ :=
      (anthropic_outcome anthropic model).resolve_right fun gone => kept second gone.1
    rw [chatIs, anthropicIs, responsesIs]
    have here : ¬ ∃ connection, r.ending = .lost connection := fun ⟨connection, gone⟩ =>
      kept connection gone
    by_cases rejected : ∃ call ∈ r.calls, call.arguments.Rejected
    · exact iff_of_true (agree_of_rejected chatAll anthropicAll responsesAll rejected _)
        (.inr (.inl rejected))
    by_cases objects : ∀ call ∈ r.calls, ∃ fields, call.arguments = .object fields
    · rw [agree_iff_of_objects chatAll anthropicAll responsesAll kept (chat_means chatEnds)
        (anthropic_means anthropicEnds) objects, and_assoc]
      constructor
      · exact fun agree => .inr (.inr ⟨objects, agree⟩)
      · rintro (gone | other | ⟨_, agree⟩)
        · exact absurd gone here
        · exact absurd other rejected
        · exact agree
    · refine iff_of_false ?_ ?_
      · by_cases broken : ∃ call ∈ r.calls, call.arguments.isBroken = true
        · exact disagree_of_broken anthropicAll
            (fun call member other => rejected ⟨call, member, other⟩) broken _ _
        · have sound : ∀ call ∈ r.calls, call.arguments.isBroken = false := fun call member =>
            Bool.of_not_eq_true fun is_broken => broken ⟨call, member, is_broken⟩
          refine disagree_of_absent chatAll anthropicAll sound ?_ _
          push Not at objects
          obtain ⟨call, member, other⟩ := objects
          refine ⟨call, member, ?_⟩
          have whole := sound call member
          cases arguments : call.arguments with
          | object fields => exact absurd arguments (other fields)
          | absent => rfl
          | broken text cut =>
            rw [arguments] at whole
            cases whole
      · rintro (gone | other | ⟨all, _⟩)
        · exact here gone
        · exact rejected other
        · exact objects all
  · have chatIs := (chat_outcome chat model).resolve_left fun ⟨_, ends, _⟩ => by
      rw [chatReason, ending] at ends
      cases ends
    have anthropicIs := (anthropic_outcome anthropic model).resolve_left fun ⟨_, ends, _⟩ => by
      rw [anthropicReason, ending] at ends
      cases ends
    have same : first = third := by
      have both := chatIs.1.symm.trans ending
      cases both
      rfl
    have same' : second = third := by
      have both := anthropicIs.1.symm.trans ending
      cases both
      rfl
    rw [chatIs.2, anthropicIs.2, responsesIs, same, same']
    refine iff_of_true ⟨fun _ => ⟨rfl, rfl⟩, ?_⟩ (.inl ⟨third, ending⟩)
    intro yielded listed
    simp only [List.mem_cons, List.not_mem_nil, or_false, or_self] at listed
    rw [listed]
    cases third with
    | closed | raised code => exact List.nil_subperm

end

def oneCall (arguments : Arguments) (ending : ResponseEnding) : LogicalResponse where
  text := "a"
  calls := [{ id := "c", name := "ls", arguments, idFits := by decide, nameFits := by decide }]
  ending := ending

def oneChat (fragment reason : String) : List ChatChunk :=
  [{ choice := some { content := "a" } },
    { choice := some { toolCalls := [{ id := "c", name := "ls" }] } },
    { choice := some { toolCalls := [{ arguments := fragment }], finishReason := reason } }]

def oneAnthropic (fragment reason : String) : List AnthropicEvent :=
  [.contentBlockDelta 0 (.text "a"), .contentBlockStop 0,
    .contentBlockStart 1 { kind := "tool_use", id := "c", name := "ls" },
    .contentBlockDelta 1 (.inputJson fragment), .contentBlockStop 1, .messageDelta reason []]

def oneResponses (fragment : String) : List ResponsesEvent :=
  [.outputTextDelta "a", .outputItemAdded 1 "c" "ls", .functionCallArgumentsDelta 1 fragment]

section
variable {arguments : Arguments} {fragment : String} (stands : arguments.Text fragment)
  (ending : ResponseEnding)

include stands

theorem oneChat_carries (given : reason ≠ "") :
    ChatCarries (oneCall arguments ending) (oneCall arguments ending).calls
      (oneChat fragment reason) reason := by
  have own : KeyedFold.own 0 (chatUpdates (oneChat fragment reason)) =
      [{ id := "c", name := "ls" }, { arguments := fragment }] := rfl
  have keys : KeyedFold.keys (chatUpdates (oneChat fragment reason)) = [0] := rfl
  refine ⟨by simp [chatContent, oneChat, oneCall, ChatChunk.content], ?_, ?_, List.Perm.refl _⟩
  · simp [chatReasons, oneChat, ChatChunk.reason, given]
  · rw [keys]
    refine .cons ?_ .nil
    rw [own]
    refine ⟨⟨_, List.mem_cons_self, rfl⟩, ?_, ?_, ?_⟩
    · simp
    · simp
    · simpa using stands

theorem oneAnthropic_carries (reason : String) :
    AnthropicCarries (oneCall arguments ending) (oneCall arguments ending).calls
      (oneAnthropic fragment reason) reason := by
  refine ⟨?_, rfl, ?_, ⟨[1], .cons ⟨[fragment], ?_, rfl⟩ .nil, rfl, ?_⟩, List.Perm.refl _⟩
  · simp [anthropicContent, oneAnthropic, oneCall, AnthropicEvent.content]
  · simp [oneAnthropic, AnthropicEvent.isStop]
  · simpa using stands
  · simp [oneAnthropic, AnthropicEvent.kind, AnthropicEvent.index, AnthropicDelta.kind]

theorem oneResponses_carries :
    ResponsesCarries (oneCall arguments ending) (oneCall arguments ending).calls
      (oneResponses fragment) := by
  have own : KeyedFold.own 1 (responsesUpdates (oneResponses fragment)) =
      [.added "c" "ls", .argumentsDelta fragment] := rfl
  have keys : (KeyedFold.keys (responsesUpdates (oneResponses fragment))).insertionSort (· ≤ ·) =
      [1] := rfl
  refine ⟨by simp [responsesContent, oneResponses, oneCall, ResponsesEvent.content], ?_, ?_,
    List.Perm.refl _⟩
  · simp [oneResponses, ResponsesEvent.terminal]
  · rw [keys]
    refine .cons ?_ .nil
    rw [own]
    refine ⟨⟨_, List.mem_cons_self⟩, ⟨_, List.mem_cons_self⟩, ?_, fragment, stands,
      [.added "c" "ls", .argumentsDelta fragment], [], rfl, ?_, ?_, ?_, .inl ?_⟩
    · simp
    · simp
    · simp
    · simp
    · simp [CallUpdate.fragment]

end

/-- A call with an object, at the end of a finished response. -/
theorem streams_agree_on_listing :
    let r := oneCall (.object []) .finished
    Agree r (outcome (streamOpenAI "m" .closed {} ((oneChat "\x7b\x7d" "tool_calls").map .data)))
        (outcome (streamAnthropic "m" .closed {} []
          (oneAnthropic "\x7b\x7d" "tool_use" ++ [.messageStop])))
        (outcome (streamResponses "m" .closed {} (oneResponses "\x7b\x7d" ++ [.completed []]))) ↔
      Agreeable r r.calls r.calls r.calls := by
  have stands : (Arguments.object []).Text "\x7b\x7d" := by
    rfl
  exact streams_agree_iff
    (.closed (oneChat_carries stands .finished (by decide)) (by decide))
    (.stopped [] .closed (oneAnthropic_carries stands .finished "tool_use") (by decide))
    (.ended [] .closed (oneResponses_carries stands .finished)
      (show (ResponseEnding.finished).Last (.completed []) from trivial)) "m"

/-- Arguments that the limit of tokens has cut off: only the Anthropic stream yields a call. -/
theorem cut_off_call_runs :
    ∃ cut, let r := oneCall (.broken "\x7b" cut) .truncated
      ChatStream r r.calls ((oneChat "\x7b" "length").map .data) .closed ∧
      AnthropicStream r r.calls (oneAnthropic "\x7b" "max_tokens" ++ [.messageStop]) .closed ∧
      ResponsesStream r r.calls (oneResponses "\x7b" ++ [.incomplete "max_output_tokens"]) .closed ∧
      ¬ Agree r (outcome (streamOpenAI "m" .closed {} ((oneChat "\x7b" "length").map .data)))
        (outcome (streamAnthropic "m" .closed {} []
          (oneAnthropic "\x7b" "max_tokens" ++ [.messageStop])))
        (outcome (streamResponses "m" .closed {}
          (oneResponses "\x7b" ++ [.incomplete "max_output_tokens"]))) := by
  have cut : ∀ fields, Json.loads "\x7b".toList ≠ some (.obj fields) := by
    have unread : Json.loads "\x7b".toList = none := by decide +kernel
    intro fields
    rw [unread]
    exact (Option.some_ne_none _).symm
  have stands : (Arguments.broken "\x7b" cut).Text "\x7b" := rfl
  refine ⟨cut, .closed (oneChat_carries stands .truncated (by decide)) List.mem_cons_self,
    .stopped [] .closed (oneAnthropic_carries stands .truncated "max_tokens") List.mem_cons_self,
    .ended [] .closed (oneResponses_carries stands .truncated) rfl, ?_⟩
  intro agree
  have yielded : (outcome (streamAnthropic "m" .closed {} []
      (oneAnthropic "\x7b" "max_tokens" ++ [.messageStop]))).calls.length = 1 := by decide +kernel
  have sound := (agree.sound _ (List.mem_cons_of_mem _ List.mem_cons_self)).length_le
  rw [yielded] at sound
  exact Nat.not_succ_le_zero 0 sound

end Knoa.Models
