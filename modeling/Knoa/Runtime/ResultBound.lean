import Knoa.Runtime.ToolInventory

/-!
# Bounded tool results

`_bound_tool_result_content`: what a model is shown of a tool result whose document is too long.
-/

mutual
/-- `json.dumps` with its own separators. -/
def Json.spaced : Json → List Char
  | .arr items => '[' :: [',', ' '].intercalate (Json.spacedItems items) ++ [']']
  | .obj fields => '\x7b' :: [',', ' '].intercalate (Json.spacedFields fields) ++ ['\x7d']
  | other => other.dumps (Json.compact false)
def Json.spacedItems : List Json → List (List Char)
  | [] => []
  | item :: items => item.spaced :: Json.spacedItems items
def Json.spacedFields : List (String × Json) → List (List Char)
  | [] => []
  | (key, value) :: fields =>
    (Json.quoted false key ++ ':' :: ' ' :: value.spaced) :: Json.spacedFields fields
end

namespace Knoa.Runtime

/-- `create_generated_text`: the id of the artifact that holds the text under the name, where there
is a store that takes it. -/
abbrev ArtifactStore := String → List Char → List Char → Option String

structure ResultBounds where
  sessionId : String := ""
  maxChars : Int := 2000
  artifacts : Option ArtifactStore := none
  /-- `str` of a value. -/
  str : Json → List Char
  /-- `uuid.uuid4().hex` -/
  fresh : List Char

section
variable (bounds : ResultBounds)

/-- `"# k: v"` for the fields that are shown, one line each. -/
def headerOf (keys : List String) (shows : Json → Bool) (output : Json) : List Char :=
  let parts := keys.filterMap fun key => ((lookup key output).filter shows).map fun value =>
    "# ".toList ++ key.toList ++ ": ".toList ++ bounds.str value
  if parts.isEmpty then [] else ['\n'].intercalate parts ++ "\n\n".toList

def outputText : Json → List Char
  | .str text => text.toList
  | .obj fields =>
    let output := Json.obj fields
    match lookup "content" output, lookup "stdout" output, lookup "result" output with
    | some (.str content), _, _ =>
      headerOf bounds ["url", "status_code", "title", "query", "file_path", "artifact_id", "name",
        "showing", "total_lines", "has_more", "next_offset"]
        (fun value => match value with | .null => false | _ => true) output ++ content.toList
    | _, some (.str stdout), _ =>
      stdout.toList ++ match (lookup "stderr" output).filter truthy with
        | some stderr => "\n\n[STDERR]\n".toList ++ bounds.str stderr
        | none => []
    | _, _, some (.str result) =>
      headerOf bounds ["execution_id", "task_id", "state", "launch_reason", "failure_code"]
        truthy output ++ result.toList
    | _, _, _ => output.dumps (Json.indented false 2)
  | output => bounds.str output

/-- `dumped.get(key)` -/
def valueOf (key : String) (dumped : Json) : Json := (lookup key dumped).getD .null

/-- `str(value or default)` -/
def textOr (value : Json) (default : List Char) : List Char :=
  if truthy value then bounds.str value else default

/-- A `read_artifact` call is not put into an artifact again. -/
def spill (dumped : Json) (output : List Char) : Option String :=
  let toolName := textOr bounds (valueOf "tool_name" dumped) "tool".toList
  let callId := (textOr bounds (valueOf "call_id" dumped) bounds.fresh).take 8
  if toolName ≠ "read_artifact".toList ∧ bounds.sessionId ≠ "" then
    (bounds.artifacts.bind fun create =>
      create bounds.sessionId output (toolName ++ '_' :: callId ++ ".txt".toList)).filter (· ≠ "")
  else none

/-- The two ends of an output that are shown. -/
structure Preview where
  head : List Char
  tail : List Char
  deriving DecidableEq

def Preview.omitted (preview : Preview) (output : List Char) : Int :=
  output.length - preview.head.length - preview.tail.length

def Preview.text (preview : Preview) (output : List Char) : List Char :=
  preview.head ++ "\n\n[... ".toList ++ Json.intText (preview.omitted output) ++
    " chars omitted ...]\n\n".toList ++ preview.tail

def spillNotice (total : Nat) (artifactId : Option String) : List Char :=
  "Output exceeded ".toList ++ Json.intText bounds.maxChars ++ " chars (".toList ++
    Json.intText total ++ " total). Head and tail previews preserved.".toList ++
    match artifactId with
    | some id => " Full output saved to artifact '".toList ++ id.toList ++
        "'. Use read_artifact(artifact_id='".toList ++ id.toList ++
        "', offset=..., limit=...) to inspect specific lines or sections.".toList
    | none => " Full result recorded in tool event.".toList

/-- `bounded_payload`, with the text of its preview. -/
def payload (dumped : Json) (output preview : List Char) : List (String × Json) :=
  let artifactId := spill bounds dumped output
  let get key := (key, valueOf key dumped)
  [get "call_id", get "tool_name", get "status", get "code",
    ("output_preview", .str (.ofList preview)), ("total_chars", .int output.length),
    ("spill_notice", .str (.ofList (spillNotice bounds output.length artifactId)))] ++
      (artifactId.map fun id => ("artifact_id", .str id)).toList

def envelope (dumped : Json) (output : List Char) (preview : Preview) : List Char :=
  (Json.obj (payload bounds dumped output (preview.text output))).sorted.spaced

def half (dumped : Json) (output : List Char) : Nat :=
  let overhead := if (spill bounds dumped output).isSome then 480 else 380
  (max 100 (bounds.maxChars - overhead)).toNat / 2

/-- Both ends lose twenty characters until the document fits. -/
def shrink (dumped : Json) (output : List Char) (preview : Preview) : Preview :=
  if bounds.maxChars < (envelope bounds dumped output preview).length ∧
      20 < preview.head.length ∧ 20 < preview.tail.length then
    shrink dumped output ⟨preview.head.take (preview.head.length - 20), preview.tail.drop 20⟩
  else preview
termination_by preview.head.length
decreasing_by
  rw [List.length_take]
  omega

/-- The first `size` characters and the last. -/
def Preview.ends (output : List Char) (size : Nat) : Preview :=
  ⟨output.take size, output.drop (output.length - size)⟩

def shownOf (dumped : Json) (output : List Char) : Preview :=
  shrink bounds dumped output (.ends output (half bounds dumped output))

def resultText (dumped : Json) : List Char := outputText bounds (valueOf "output" dumped)

def boundToolResultContent (dumped : Json) : List Char :=
  let raw := dumped.sorted.spaced
  if raw.length ≤ bounds.maxChars then raw
  else
    let output := resultText bounds dumped
    envelope bounds dumped output (shownOf bounds dumped output)

/-- The content is within its bound, and what it shows of a longer result are two ends of the output
and the number of the characters between them. -/
structure BoundedResult (dumped : Json) : Prop where
  length : (boundToolResultContent bounds dumped).length ≤ bounds.maxChars
  ends : bounds.maxChars < dumped.sorted.spaced.length →
    let output := resultText bounds dumped
    let shown := shownOf bounds dumped output
    shown.head <+: output ∧ shown.tail <:+ output ∧
      shown.head.length + shown.tail.length ≤ output.length ∧
      shown.omitted output = output.length - (shown.head.length + shown.tail.length) ∧
      0 ≤ shown.omitted output

/-- A field in a document of several, with its quotes and its share of the separators. -/
def fieldSize (field : String × Json) : Nat :=
  (Json.quoted false field.1).length + field.2.sorted.spaced.length + 4

def escaped (text : List Char) : Nat := (text.flatMap (Json.escape false)).length

/-- The maximum has room for the other fields of the document and two ends of that size, which are
escaped, with the note between them. -/
def Room (dumped : Json) (output : List Char) (size : Nat) : Prop :=
  ((payload bounds dumped output []).map fieldSize).sum +
    escaped ((Preview.ends output size).text output) ≤ bounds.maxChars

def firstEnds (dumped : Json) (output : List Char) : Nat :=
  min (half bounds dumped output) output.length

/-- The sizes of the ends that are tried: twenty less each time, while more than twenty are left. -/
def Tried (dumped : Json) (output : List Char) (size : Nat) : Prop :=
  ∃ k, size + 20 * k = firstEnds bounds dumped output ∧ (k = 0 ∨ 0 < size)

/-- The loop comes down to ends of twenty characters at most. -/
def leastEnds (dumped : Json) (output : List Char) : Nat :=
  firstEnds bounds dumped output - 20 * ((firstEnds bounds dumped output - 1) / 20)

end

variable {bounds : ResultBounds} {dumped : Json} {output : List Char} {size : Nat}

theorem spaced_length (fields : List (String × Json)) (full : fields ≠ []) :
    (Json.obj fields).spaced.length = (fields.map fun field =>
      (Json.quoted false field.1).length + field.2.spaced.length + 4).sum := by
  rw [Json.spaced]
  induction fields with
  | nil => exact absurd rfl full
  | cons field fields ih =>
    cases fields with
    | nil =>
      simp [Json.spacedFields, List.intercalate]
      omega
    | cons other fields =>
      have later := ih (by simp)
      simp only [Json.spacedFields, List.intercalate, List.intersperse, List.flatten_cons,
        List.length_append, List.length_cons, List.length_nil, List.map_cons, List.sum_cons]
        at later ⊢
      omega

theorem sorted_length (fields : List (String × Json)) (full : fields ≠ []) :
    (Json.obj fields).sorted.spaced.length = (fields.map fieldSize).sum := by
  have each : Json.sortedFields fields = fields.map fun field => (field.1, field.2.sorted) := by
    clear full
    induction fields with
    | nil => rfl
    | cons field fields ih => rw [Json.sortedFields, ih, List.map_cons]
  have order := List.perm_insertionSort Json.keyLe (Json.sortedFields fields)
  have some_ : (Json.sortedFields fields).insertionSort Json.keyLe ≠ [] := by
    intro none
    rw [none, each] at order
    exact full (List.map_eq_nil_iff.mp order.nil_eq.symm)
  rw [Json.sorted, spaced_length _ some_, (order.map _).sum_nat, each, List.map_map]
  rfl

theorem escaped_append (first second : List Char) :
    escaped (first ++ second) = escaped first + escaped second := by
  rw [escaped, List.flatMap_append, List.length_append]
  rfl

theorem length_le_escaped (text : List Char) : text.length ≤ escaped text := by
  induction text with
  | nil => exact Nat.zero_le _
  | cons c text ih =>
    have here : 1 ≤ (Json.escape false c).length := by
      unfold Json.escape
      split
      any_goals simp
      split
      · unfold Json.unicodeEscape
        split <;> simp
      · simp
    rw [escaped, List.flatMap_cons, List.length_append, List.length_cons]
    exact Nat.add_comm 1 _ ▸ Nat.add_le_add here ih

theorem fits_iff : (envelope bounds dumped output (.ends output size)).length ≤ bounds.maxChars ↔
    Room bounds dumped output size := by
  have full : ∀ text, payload bounds dumped output text ≠ [] := fun text => by simp [payload]
  have shown : ∀ text, ((payload bounds dumped output text).map fieldSize).sum =
      ((payload bounds dumped output []).map fieldSize).sum + escaped text := by
    intro text
    simp only [payload, fieldSize, Json.sorted, Json.spaced, Json.dumps, Json.render, Json.compact,
      Json.quoted, escaped, String.toList_ofList, List.map_append, List.map_cons, List.sum_append,
      List.sum_cons, List.length_cons, List.length_append, List.flatMap_nil, List.length_nil]
    omega
  rw [Room, envelope, sorted_length _ (full _), shown]
  push_cast
  exact Iff.rfl

theorem escape_of_isDigit {c : Char} (digit : c.isDigit = true) : Json.escape false c = [c] := by
  unfold Json.escape
  split <;> first | cases digit | skip
  have low : 48 ≤ c.toNat := by
    simp only [Char.isDigit, Bool.and_eq_true, decide_eq_true_eq] at digit
    exact digit.1
  rw [if_neg (by simp; omega)]

theorem escaped_intText (n : Int) : escaped (Json.intText n) = (Json.intText n).length := by
  have digits : ∀ m, (Nat.toDigits 10 m).flatMap (Json.escape false) = Nat.toDigits 10 m := by
    intro m
    refine (List.flatMap_congr fun c member => ?_).trans (List.flatMap_singleton' _)
    exact escape_of_isDigit (Nat.isDigit_of_mem_toDigits (by decide) (by decide) member)
  unfold escaped
  cases n with
  | ofNat m => rw [Json.intText, digits]
  | negSucc m =>
    rw [Json.intText, List.flatMap_cons, digits]
    rfl

theorem intText_length (n : Int) : (Json.intText (n + 40)).length ≤ (Json.intText n).length + 2 := by
  have short : ∀ (m k : Nat), m < 10 ^ (k + 1) → (Nat.toDigits 10 m).length ≤ k + 1 := fun m k =>
    (Nat.length_toDigits_le_iff (by decide) (Nat.succ_pos k)).mpr
  have long : ∀ m : Nat, m < 10 ^ (Nat.toDigits 10 m).length := fun m =>
    (Nat.length_toDigits_le_iff (by decide) Nat.length_toDigits_pos).mp (le_refl _)
  cases n with
  | ofNat m =>
    have bound := long m
    have room : 10 ^ ((Nat.toDigits 10 m).length + 2) =
        100 * 10 ^ (Nat.toDigits 10 m).length := by
      rw [Nat.pow_succ, Nat.pow_succ]
      omega
    have one := Nat.one_le_pow (Nat.toDigits 10 m).length 10 (by decide)
    exact short (m + 40) ((Nat.toDigits 10 m).length + 1) (by omega)
  | negSucc m =>
    by_cases small : m < 40
    · obtain ⟨k, positive⟩ : ∃ k : Nat, Int.negSucc m + 40 = k := ⟨39 - m, by omega⟩
      rw [positive]
      exact (short k 1 (by omega)).trans (Nat.le_add_left 2 _)
    · obtain ⟨k, rfl⟩ := Nat.exists_eq_add_of_le (Nat.le_of_not_lt small)
      have negative : Int.negSucc (40 + k) + 40 = Int.negSucc k := by omega
      rw [negative]
      have bound := long (40 + k + 1)
      have fewer := short (k + 1) _ (Nat.lt_of_lt_of_le (by omega : k + 1 < 40 + k + 1)
        (bound.le.trans (Nat.pow_le_pow_right (by decide) (Nat.le_succ _))))
      exact Nat.succ_le_succ (fewer.trans (Nat.le_succ _))

/-- Shorter ends need less room. -/
theorem Room.shorter (inside : size + 20 ≤ output.length)
    (room : Room bounds dumped output (size + 20)) : Room bounds dumped output size := by
  have cut : output.take (size + 20) = output.take size ++ (output.drop size).take 20 :=
    List.take_add
  have rest : output.drop (output.length - (size + 20)) =
      (output.drop (output.length - (size + 20))).take 20 ++ output.drop (output.length - size) := by
    have joined := List.take_append_drop 20 (output.drop (output.length - (size + 20)))
    have start : output.length - (size + 20) + 20 = output.length - size := by omega
    rw [List.drop_drop, start] at joined
    exact joined.symm
  have lengths : ∀ n ≤ output.length, (Preview.ends output n).omitted output =
      output.length - n - n := by
    intro n within
    simp only [Preview.omitted, Preview.ends, List.length_take, List.length_drop]
    omega
  have count := intText_length (output.length - (size + 20 : Nat) - (size + 20 : Nat))
  have same : (output.length - (size + 20 : Nat) - (size + 20 : Nat) + 40 : Int) =
      output.length - size - size := by omega
  have twenty : 20 ≤ escaped ((output.drop size).take 20) := by
    refine le_trans ?_ (length_le_escaped _)
    simp only [List.length_take, List.length_drop]
    omega
  rw [same] at count
  unfold Room Preview.text at room ⊢
  rw [lengths _ inside] at room
  rw [lengths _ (by omega)]
  simp only [Preview.ends, escaped_append, escaped_intText] at room ⊢
  rw [cut, rest, escaped_append, escaped_append] at room
  omega

theorem Tried.step (tried : Tried bounds dumped output size) :
    size ≤ firstEnds bounds dumped output ∧
      size % 20 = firstEnds bounds dumped output % 20 ∧
        (size = firstEnds bounds dumped output ∨ 0 < size) := by
  obtain ⟨k, sum, some_⟩ := tried
  omega

theorem Preview.ends_shorter (inside : size ≤ output.length) (more : 20 < size) :
    (⟨(output.take size).take ((output.take size).length - 20),
      (output.drop (output.length - size)).drop 20⟩ : Preview) = .ends output (size - 20) := by
  rw [Preview.ends, List.length_take, List.take_take, List.drop_drop]
  congr 2
  · omega
  · omega

/-- The loop ends at the largest size that fits, where there is one. -/
theorem shrink_ends (tried : Tried bounds dumped output size)
    (above : ∀ other, Tried bounds dumped output other → Room bounds dumped output other →
      other ≤ size) : ∃ last, shrink bounds dumped output (.ends output size) = .ends output last ∧
      Tried bounds dumped output last ∧
      ∀ other, Tried bounds dumped output other → Room bounds dumped output other →
        other ≤ last ∧ Room bounds dumped output last := by
  induction size using Nat.strong_induction_on with
  | h size ih =>
    have inside : size ≤ output.length := tried.step.1.trans (min_le_right _ _)
    have lengths : (Preview.ends output size).head.length = size ∧
        (Preview.ends output size).tail.length = size := by
      simp only [Preview.ends, List.length_take, List.length_drop]
      omega
    rw [shrink, lengths.1, lengths.2]
    by_cases fits : Room bounds dumped output size
    · rw [if_neg fun long => absurd long.1 (not_lt.mpr (fits_iff.mpr fits))]
      exact ⟨size, rfl, tried, fun other known small => ⟨above other known small, fits⟩⟩
    · -- a size that fits is below this one, and so are all that are still to be tried
      have below : ∀ other, Tried bounds dumped output other → Room bounds dumped output other →
          other + 20 ≤ size ∧ 20 < size := by
        intro other known small
        have least := above other known small
        have apart : other ≠ size := fun same => fits (same ▸ small)
        have old := known.step
        have now := tried.step
        omega
      by_cases more : 20 < size
      · rw [if_pos ⟨not_le.mp (mt fits_iff.mp fits), more, more⟩]
        have shorter := Preview.ends_shorter inside more
        rw [List.length_take, min_eq_left inside] at shorter
        rw [show (⟨(Preview.ends output size).head.take (size - 20),
          (Preview.ends output size).tail.drop 20⟩ : Preview) = .ends output (size - 20) from shorter]
        obtain ⟨k, sum, -⟩ := tried
        refine ih (size - 20) (by omega) ⟨k + 1, by omega, Or.inr (by omega)⟩
          fun other known small => ?_
        have least := (below other known small).1
        omega
      · rw [if_neg fun long => more long.2.1]
        exact ⟨size, rfl, tried, fun other known small => absurd (below other known small).2 more⟩

theorem shownOf_ends (bounds : ResultBounds) (dumped : Json) (output : List Char) :
    ∃ last, shownOf bounds dumped output = .ends output last ∧ last ≤ output.length ∧
      Tried bounds dumped output last ∧
      ∀ other, Tried bounds dumped output other → Room bounds dumped output other →
        other ≤ last ∧ Room bounds dumped output last := by
  have first : Preview.ends output (half bounds dumped output) =
      .ends output (firstEnds bounds dumped output) := by
    rw [Preview.ends, Preview.ends, List.take_eq_take_min, firstEnds]
    congr 2
    omega
  have most : Tried bounds dumped output (firstEnds bounds dumped output) := ⟨0, rfl, Or.inl rfl⟩
  obtain ⟨last, shown, tried, largest⟩ :=
    shrink_ends most fun other (known : Tried bounds dumped output other) _ => known.step.1
  refine ⟨last, ?_, tried.step.1.trans (min_le_right _ _), tried, largest⟩
  rw [shownOf, first, shown]

theorem leastEnds_tried (bounds : ResultBounds) (dumped : Json) (output : List Char) :
    Tried bounds dumped output (leastEnds bounds dumped output) := by
  refine ⟨(firstEnds bounds dumped output - 1) / 20, ?_, ?_⟩
  all_goals unfold leastEnds; omega

theorem leastEnds_room (tried : Tried bounds dumped output size)
    (room : Room bounds dumped output size) :
    Room bounds dumped output (leastEnds bounds dumped output) := by
  have bound : firstEnds bounds dumped output ≤ output.length := min_le_right _ _
  have inside := tried.step.1
  obtain ⟨n, rfl⟩ : ∃ n, leastEnds bounds dumped output + 20 * n = size := by
    obtain ⟨k, sum, some_⟩ := tried
    refine ⟨(firstEnds bounds dumped output - 1) / 20 - k, ?_⟩
    unfold leastEnds
    omega
  clear tried
  induction n with
  | zero => exact room
  | succ n ih =>
    have longer : Room bounds dumped output (leastEnds bounds dumped output + 20 * n + 20) := room
    exact ih (longer.shorter (by omega)) (by omega)

/-- A result stays within its bound exactly if it is short, or if the maximum has room for the other
fields and the least ends, and for no ends, of those the loop tries, that overlap. -/
theorem boundedResult_iff (bounds : ResultBounds) (dumped : Json) : BoundedResult bounds dumped ↔
      dumped.sorted.spaced.length ≤ bounds.maxChars ∨
        let output := resultText bounds dumped
        let first := firstEnds bounds dumped output
        Room bounds dumped output (leastEnds bounds dumped output) ∧
          ∀ k, 20 * k < first → output.length < 2 * (first - 20 * k) →
            ¬Room bounds dumped output (first - 20 * k) := by
  by_cases short : dumped.sorted.spaced.length ≤ bounds.maxChars
  · refine ⟨fun _ => .inl short, fun _ => ⟨?_, fun long => absurd short (not_le.mpr long)⟩⟩
    rw [boundToolResultContent, if_pos short]
    exact short
  · generalize texted : resultText bounds dumped = output
    obtain ⟨last, shown, inside, tried, largest⟩ := shownOf_ends bounds dumped output
    have content : boundToolResultContent bounds dumped =
        envelope bounds dumped output (.ends output last) := by
      rw [boundToolResultContent, if_neg short, texted]
      dsimp only
      rw [shown]
    have lengths : (Preview.ends output last).head.length = last ∧
        (Preview.ends output last).tail.length = last := by
      simp only [Preview.ends, List.length_take, List.length_drop]
      omega
    constructor
    · rintro ⟨length, ends⟩
      rw [content] at length
      obtain ⟨-, -, apart, -⟩ := ends (not_le.mp short)
      rw [texted, shown, lengths.1, lengths.2] at apart
      refine .inr ⟨leastEnds_room tried (fits_iff.mp length), fun k more overlap room => ?_⟩
      have least := (largest _ ⟨k, Nat.sub_add_cancel more.le, Or.inr (Nat.sub_pos_of_lt more)⟩
        room).1
      omega
    · rintro (fits | ⟨room, overlaps⟩)
      · exact absurd fits short
      have fits := (largest _ (leastEnds_tried bounds dumped output) room).2
      have apart : 2 * last ≤ output.length := by
        obtain ⟨k, sum, some_⟩ := tried
        by_contra overlap
        refine overlaps k (by omega) (by omega) ?_
        rw [← sum, Nat.add_sub_cancel]
        exact fits
      refine ⟨by rw [content]; exact fits_iff.mpr fits, fun _ => ?_⟩
      rw [texted]
      dsimp only
      rw [shown]
      refine ⟨List.take_prefix _ _, List.drop_suffix _ _, ?_, ?_, ?_⟩
      all_goals simp only [Preview.omitted, lengths]; omega

def sampleBounds : ResultBounds := { maxChars := 450, str := fun _ => [], fresh := [] }

def sampleResult : Json :=
  .obj [("detail", .str (.ofList (List.replicate 450 'x'))), ("output", .str "hello")]

theorem sampleResult_sorted : sampleResult.sorted = sampleResult := by
  simp only [sampleResult, Json.sorted, Json.sortedFields, List.insertionSort, List.foldr,
    List.orderedInsert]
  rw [if_pos (by decide +kernel)]

theorem lt_spaced (n : Nat) : n < (Json.obj [("detail", .str (.ofList (List.replicate n 'x'))),
      ("output", .str "hello")]).spaced.length := by
  have plain : Json.escape false 'x' = ['x'] := by decide
  have value : ((Json.str (.ofList (List.replicate n 'x'))).dumps (Json.compact false)).length =
      n + 2 := by
    simp only [Json.dumps, Json.render, Json.compact, Json.quoted, String.toList_ofList,
      List.flatMap_replicate, plain, List.flatten_replicate_singleton, List.length_cons,
      List.length_append, List.length_replicate, List.length_nil]
  simp only [Json.spaced, Json.spacedFields, List.intercalate, List.intersperse,
    List.flatten_cons, List.length_append, List.length_cons, value]
  omega

/-- An output of five characters is shown twice, with -5 of them left out. -/
theorem short_output_shown_twice : ¬ BoundedResult sampleBounds sampleResult := by
  intro bounded
  obtain ⟨-, -, -, -, counted⟩ := bounded.ends (by
    rw [sampleResult_sorted]
    exact Int.ofNat_lt.mpr (lt_spaced 450))
  rw [shownOf, shrink, if_neg fun long => absurd long.2.1 (by decide +kernel)] at counted
  exact absurd counted (by decide +kernel)

end Knoa.Runtime
