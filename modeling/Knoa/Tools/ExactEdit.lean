import Mathlib.Data.List.Infix
import Mathlib.Tactic.Ring

/-!
# Exact edits of a text file

`EditFileTool`. A file stands as the text that its bytes decode to, or as none where they do not.
-/
namespace Knoa.Tools

inductive FileEntry
  | missing
  | other
  | file (text : Option (List Char))
  deriving DecidableEq

inductive FileError
  | permission
  | raised (message : String)

/-- `os.linesep` -/
inductive LineSep
  | lf
  | crlf

/-- What the file system does with the path: whether a read fails, and what a write that fails leaves
in the file. -/
structure FileSystem where
  linesep : LineSep := .lf
  resolve : String → String
  read : Option FileError := none
  write : List Char → Option (FileError × Option (List Char)) := fun _ => none

structure EditRequest where
  path : String
  oldString : Option (List Char)
  newString : Option (List Char)
  replaceAll : Bool := false

inductive EditResult
  | error (message : String)
  | success (path : String) (replacements bytesWritten : Nat)

/-- What `read_text` makes of the line endings. -/
def universalNewlines : List Char → List Char
  | '\r' :: '\n' :: rest => '\n' :: universalNewlines rest
  | '\r' :: rest => '\n' :: universalNewlines rest
  | c :: rest => c :: universalNewlines rest
  | [] => []

/-- What `write_text` makes of the line feeds. -/
def LineSep.translate : LineSep → List Char → List Char
  | .lf, text => text
  | .crlf, text => text.flatMap fun c => if c = '\n' then ['\r', '\n'] else [c]

/-- The text between the first occurrences from the left, `limit` of them at most; `skip` characters
are still part of the last one. -/
def pieces (old : List Char) : Nat → Nat → List Char → List (List Char)
  | _, _, [] => [[]]
  | limit, skip + 1, _ :: rest => pieces old limit skip rest
  | 0, 0, c :: rest => [c :: rest]
  | limit + 1, 0, c :: rest =>
    if old <+: c :: rest then [] :: pieces old limit (old.length - 1) rest
    else (pieces old (limit + 1) 0 rest).modifyHead (c :: ·)

def count (text old : List Char) : Nat := (pieces old text.length 0 text).length - 1

def replace (text old new : List Char) (limit : Nat) : List Char :=
  new.intercalate (pieces old limit 0 text)

def FileError.message (path : String) : FileError → String
  | .permission => s!"Permission denied: {path}"
  | .raised message => message

/-- The checks, then the new text and the number of replacements. -/
def plan (fs : FileSystem) (request : EditRequest) (entry : FileEntry) :
    Except String (List Char × Nat) := do
  if request.path = "" then throw "path is required"
  let some old := request.oldString | throw "old_string is required"
  let some new := request.newString | throw "new_string is required"
  if old = [] then throw "old_string cannot be empty"
  if old = new then throw "new_string must be different from old_string"
  match entry with
  | .missing => throw s!"File not found: {request.path}"
  | .other => throw s!"Path is not a file: {request.path}"
  | .file text =>
    if let some error := fs.read then throw (error.message request.path)
    let some text := text | throw s!"File is not a valid UTF-8 text file: {request.path}"
    let content := universalNewlines text
    let occurrences := count content old
    if occurrences = 0 then
      throw ("old_string not found in file. Ensure exact indentation, " ++
        "line breaks, and surrounding context match the source.")
    if 1 < occurrences ∧ request.replaceAll = false then
      throw (s!"old_string found {occurrences} times in file. Provide more unique " ++
        "surrounding context, or set replace_all=true to replace all instances.")
    if request.replaceAll then return (replace content old new content.length, occurrences)
    return (replace content old new 1, 1)

def execute (fs : FileSystem) (request : EditRequest) (entry : FileEntry) :
    EditResult × FileEntry :=
  match plan fs request entry with
  | .error message => (.error message, entry)
  | .ok (updated, replacements) =>
    let written := fs.linesep.translate updated
    match fs.write written with
    | some (error, left) => (.error (error.message request.path), .file left)
    | none => (.success (fs.resolve request.path) replacements
        (String.ofList updated).utf8ByteSize, .file (some written))

/-- The old text with some occurrences of a string replaced and every other character kept. -/
def Replaced (old new : List Char) (replacements : Nat) (before after : List Char) : Prop :=
  ∃ parts, parts.length = replacements + 1 ∧ old.intercalate parts = before ∧
    new.intercalate parts = after

def OccursOnce (old text : List Char) : Prop := ∃ i, ∀ j, old <+: text.drop j ↔ j = i

/-- An error leaves the file alone, a success replaces what it reports and nothing else. -/
def ExactEdit (fs : FileSystem) (request : EditRequest) (entry : FileEntry) : Prop :=
  match execute fs request entry with
  | (.error _, after) => after = entry
  | (.success _ replacements _, after) => ∃ old new before text, request.oldString = some old ∧
      request.newString = some new ∧ entry = .file (some before) ∧ after = .file (some text) ∧
        Replaced old new replacements before text ∧
          (request.replaceAll = false → OccursOnce old before)

/-- The line ends that reading and writing bring back: line feeds alone, and on Windows carriage
returns with line feeds, where neither of the two strings has a line end. -/
def LineSep.Keeps (old new before : List Char) : LineSep → Prop
  | .lf => '\r' ∉ before
  | .crlf => LineSep.crlf.translate (universalNewlines before) = before ∧ '\n' ∉ old ∧ '\n' ∉ new

/-- The condition where the edit passes the checks: a write that fails leaves the file; one that
succeeds keeps its line ends, and edits the only position of the string unless it edits all. -/
def Faithful (fs : FileSystem) (request : EditRequest) (entry : FileEntry) : Prop :=
  ∀ planned, plan fs request entry = .ok planned →
    match fs.write (fs.linesep.translate planned.1) with
    | some (_, left) => entry = .file left
    | none => ∀ before old new, entry = .file (some before) → request.oldString = some old →
        request.newString = some new →
          fs.linesep.Keeps old new before ∧ (request.replaceAll = false → OccursOnce old before)

variable {old new text : List Char} {fs : FileSystem} {request : EditRequest} {entry : FileEntry}

theorem universalNewlines_clear : '\r' ∉ universalNewlines text := by
  induction text using universalNewlines.induct with
  | case1 rest ih => simpa [universalNewlines] using ih
  | case2 rest other ih =>
    rw [universalNewlines]
    · simpa using ih
    · exact other
  | case3 c rest first second ih =>
    rw [universalNewlines]
    · refine List.not_mem_cons_of_ne_of_not_mem ?_ ih
      rintro rfl
      exact second rfl
    · exact first
    · exact second
  | case4 => simp [universalNewlines]

theorem universalNewlines_of_clear (clear : '\r' ∉ text) : universalNewlines text = text := by
  induction text with
  | nil => rfl
  | cons c rest ih =>
    obtain ⟨first, later⟩ : '\r' ≠ c ∧ '\r' ∉ rest := by simpa using clear
    rw [universalNewlines, ih later]
    · rintro other rfl
      exact absurd rfl first
    · rintro rfl
      exact absurd rfl first

theorem pieces_ne_nil (limit skip : Nat) : pieces old limit skip text ≠ [] := by
  induction text generalizing limit skip with
  | nil => simp [pieces]
  | cons c rest ih =>
    cases skip with
    | succ skip => exact ih limit skip
    | zero =>
      cases limit with
      | zero => simp [pieces]
      | succ limit =>
        rw [pieces]
        split
        · simp
        · simpa using ih (limit + 1) 0

variable {parts : List (List Char)}

theorem intercalate_cons (sep first : List Char) (full : parts ≠ []) :
    sep.intercalate (first :: parts) = first ++ (sep ++ sep.intercalate parts) := by
  cases parts with
  | nil => exact absurd rfl full
  | cons second parts => simp [List.intercalate]

theorem intercalate_modifyHead (sep : List Char) (c : Char)
    (full : parts ≠ []) : sep.intercalate
    (parts.modifyHead (c :: ·)) = c :: sep.intercalate parts := by
  cases parts with
  | nil => exact absurd rfl full
  | cons first parts => cases parts <;> simp [List.intercalate]

theorem intercalate_pieces (full : old ≠ []) (limit skip : Nat) :
    old.intercalate (pieces old limit skip text) = text.drop skip := by
  induction text generalizing limit skip with
  | nil => simp [pieces, List.intercalate]
  | cons c rest ih =>
    cases skip with
    | succ skip => exact ih limit skip
    | zero =>
      cases limit with
      | zero => simp [pieces, List.intercalate]
      | succ limit =>
        rw [pieces]
        split
        · rename_i found
          obtain ⟨after, joined⟩ := found
          have behind : rest.drop (old.length - 1) = after := by
            have dropped := congrArg (List.drop old.length) joined
            rw [List.drop_left] at dropped
            obtain ⟨n, length⟩ := Nat.exists_eq_succ_of_ne_zero (List.length_eq_zero_iff.not.mpr full)
            rw [length] at dropped ⊢
            exact dropped.symm
          rw [intercalate_cons old [] (pieces_ne_nil _ _), ih, behind]
          exact joined
        · rw [intercalate_modifyHead old c (pieces_ne_nil _ _), ih]
          rfl

theorem pieces_zero (skip : Nat) : (pieces old 0 skip text).length = 1 := by
  induction text generalizing skip with
  | nil => simp [pieces]
  | cons c rest ih =>
    cases skip with
    | succ skip => exact ih skip
    | zero => rfl

theorem pieces_one {limit skip : Nat} (several : 1 < (pieces old (limit + 1) skip text).length) :
    (pieces old 1 skip text).length = 2 := by
  induction text generalizing skip with
  | nil => simp [pieces] at several
  | cons c rest ih =>
    cases skip with
    | succ skip => exact ih several
    | zero =>
      rw [pieces] at several ⊢
      by_cases found : old <+: c :: rest
      · simp [found, pieces_zero]
      · rw [if_neg found, List.length_modifyHead] at several ⊢
        exact ih several

theorem count_intercalate (a : Char) (sep : List Char)
    (full : parts ≠ []) : (sep.intercalate parts).count a =
      (parts.map (List.count a)).sum + (parts.length - 1) * sep.count a := by
  induction parts with
  | nil => exact absurd rfl full
  | cons first parts ih =>
    by_cases last : parts = []
    · simp [last, List.intercalate]
    · obtain ⟨n, length⟩ := Nat.exists_eq_succ_of_ne_zero (List.length_eq_zero_iff.not.mpr last)
      rw [intercalate_cons sep first last, List.count_append, List.count_append, ih last]
      simp only [List.map_cons, List.sum_cons, List.length_cons, length]
      rw [Nat.succ_sub_one, Nat.add_sub_cancel, Nat.succ_mul]
      ring

/-- What passed the checks: the new string is put between the pieces of the content. -/
structure Planned (request : EditRequest) (before updated : List Char) (replacements : Nat)
    (old new : List Char) (parts : List (List Char)) : Prop where
  oldString : request.oldString = some old
  newString : request.newString = some new
  some_made : 0 < replacements
  length : parts.length = replacements + 1
  content : old.intercalate parts = universalNewlines before
  updated : new.intercalate parts = updated

theorem plan_ok {updated : List Char} {replacements : Nat}
    (planned : plan fs request entry = .ok (updated, replacements)) :
    ∃ before old new parts, entry = .file (some before) ∧
      Planned request before updated replacements old new parts := by
  unfold plan at planned
  simp only [pure, Except.pure, bind, Except.bind, throw, throwThe, MonadExceptOf.throw] at planned
  split at planned
  · cases planned
  split at planned
  swap
  · cases planned
  rename_i old known
  split at planned
  swap
  · cases planned
  rename_i new given
  split at planned
  · cases planned
  rename_i full
  split at planned
  · cases planned
  split at planned
  · cases planned
  · cases planned
  split at planned
  · cases planned
  split at planned
  swap
  · cases planned
  rename_i before
  generalize content : universalNewlines before = text at planned
  split at planned
  · cases planned
  rename_i present
  have several : 1 < (pieces old text.length 0 text).length := by
    unfold count at present
    omega
  have joined (limit : Nat) : old.intercalate (pieces old limit 0 text) = text :=
    intercalate_pieces full limit 0
  split at planned
  · cases planned
  split at planned
  · cases planned
    refine ⟨before, old, new, pieces old text.length 0 text, rfl, known, given, by omega, ?_, ?_, rfl⟩
    · unfold count
      omega
    · rw [joined, content]
  · cases planned
    refine ⟨before, old, new, pieces old 1 0 text, rfl, known, given, Nat.one_pos, ?_, ?_, rfl⟩
    · obtain ⟨c, rest, shape⟩ : ∃ c rest, text = c :: rest := by
        cases text with
        | nil => simp [pieces] at several
        | cons c rest => exact ⟨c, rest, rfl⟩
      rw [shape] at several ⊢
      exact pieces_one several
    · rw [joined, content]

theorem count_le_universalNewlines :
    text.count '\r' ≤ (universalNewlines text).count '\n' ∧
      text.count '\n' ≤ (universalNewlines text).count '\n' := by
  induction text using universalNewlines.induct with
  | case1 rest ih => simp [universalNewlines, ih]
  | case2 rest other ih =>
    rw [universalNewlines]
    · simp only [List.count_cons_self, List.count_cons_of_ne (by decide : '\r' ≠ '\n')]
      omega
    · exact other
  | case3 c rest first second ih =>
    rw [universalNewlines]
    · rw [List.count_cons_of_ne fun same => second same]
      simp only [List.count_cons]
      omega
    · exact first
    · exact second
  | case4 => simp [universalNewlines]

/-- A text with as many of both characters as its reading has line ends stands with pairs alone. -/
theorem translate_universalNewlines (ends : (universalNewlines text).count '\n' = text.count '\n')
    (pairs : text.count '\r' = text.count '\n') :
    LineSep.crlf.translate (universalNewlines text) = text := by
  induction text using universalNewlines.induct with
  | case1 rest ih =>
    simp only [universalNewlines, List.count_cons_self,
      List.count_cons_of_ne (by decide : '\r' ≠ '\n'),
      List.count_cons_of_ne (by decide : '\n' ≠ '\r')] at ends pairs
    have same := ih (by omega) (by omega)
    unfold LineSep.translate at same ⊢
    simp [universalNewlines, same]
  | case2 rest other ih =>
    have bound := (@count_le_universalNewlines rest).2
    rw [universalNewlines] at ends
    · simp only [List.count_cons_self, List.count_cons_of_ne (by decide : '\r' ≠ '\n')] at ends
      omega
    · exact other
  | case3 c rest first second ih =>
    have bound := (@count_le_universalNewlines rest).1
    rw [universalNewlines] at ends ⊢
    · rw [List.count_cons_of_ne fun same => second same] at pairs
      simp only [List.count_cons] at ends pairs
      by_cases feed : c = '\n'
      · simp only [feed, beq_self_eq_true, if_true] at ends pairs
        omega
      · have same := ih (by omega) (by simpa [feed] using pairs)
        unfold LineSep.translate at same ⊢
        simp [feed, same]
    · exact first
    · exact second
    · exact first
    · exact second
  | case4 => rfl

theorem translate_clear (clear : '\n' ∉ text) : LineSep.crlf.translate text = text := by
  unfold LineSep.translate
  refine (List.flatMap_congr fun c member => if_neg ?_).trans (List.flatMap_singleton' text)
  rintro rfl
  exact clear member

theorem translate_intercalate (sep : List Char) (full : parts ≠ []) :
    LineSep.crlf.translate (sep.intercalate parts) =
      (LineSep.crlf.translate sep).intercalate (parts.map LineSep.crlf.translate) := by
  induction parts with
  | nil => exact absurd rfl full
  | cons first parts ih =>
    by_cases last : parts = []
    · simp [last, List.intercalate]
    · rw [intercalate_cons sep first last, List.map_cons,
        intercalate_cons _ _ (List.map_eq_nil_iff.not.mpr last), ← ih last]
      simp [LineSep.translate]

theorem count_translate (text : List Char) :
    (LineSep.crlf.translate text).count '\n' = text.count '\n' ∧
      (LineSep.crlf.translate text).count '\r' = text.count '\r' + text.count '\n' := by
  induction text with
  | nil => exact ⟨rfl, rfl⟩
  | cons c rest ih =>
    simp only [LineSep.translate] at ih ⊢
    rw [List.flatMap_cons, List.count_append, List.count_append, ih.1, ih.2]
    by_cases feed : c = '\n'
    · simp [feed]
      omega
    · simp [feed, List.count_cons]
      omega

/-- The characters of the line ends are counted: a file with other line ends is not the one that
was edited. -/
theorem Planned.replaced_iff {before updated : List Char} {replacements : Nat} (sep : LineSep)
    (planned : Planned request before updated replacements old new parts) :
    (sep.Keeps old new before → Replaced old new replacements before (sep.translate updated)) ∧
      (Replaced old new replacements before (sep.translate updated) →
        sep.Keeps old new before ∨ sep = .crlf ∧ '\n' ∈ old) := by
  have counts (a : Char) (sep : List Char) {parts : List (List Char)}
      (length : parts.length = replacements + 1) : (sep.intercalate parts).count a =
        (parts.map (List.count a)).sum + replacements * sep.count a := by
    rw [count_intercalate _ _ (by rintro rfl; cases length), length, Nat.add_sub_cancel]
  have full : parts ≠ [] := by
    rintro rfl
    cases planned.length
  have clear := List.count_eq_zero.mpr (@universalNewlines_clear before)
  have returns := counts '\r' old planned.length
  rw [planned.content, clear] at returns
  cases sep with
  | lf =>
    refine ⟨fun clear => ⟨parts, planned.length, ?_, planned.updated⟩, ?_⟩
    · rw [planned.content, universalNewlines_of_clear clear]
    · rintro ⟨parts', length, joined, made⟩
      have after := counts '\r' new planned.length
      have after' := counts '\r' new length
      have before' := counts '\r' old length
      rw [planned.updated] at after
      rw [made] at after'
      rw [joined] at before'
      refine Or.inl (List.count_eq_zero.mp ?_)
      change updated.count '\r' = _ at after'
      omega
  | crlf =>
    refine ⟨?_, ?_⟩
    · rintro ⟨pairs, oldLine, newLine⟩
      refine ⟨parts.map LineSep.crlf.translate, by rw [List.length_map, planned.length], ?_, ?_⟩
      · rw [← translate_clear oldLine, ← translate_intercalate old full, planned.content, pairs]
      · rw [← translate_clear newLine, ← translate_intercalate new full, planned.updated]
    · rintro ⟨parts', length, joined, made⟩
      by_cases line : '\n' ∈ old
      · exact Or.inr ⟨rfl, line⟩
      have after := counts '\r' new planned.length
      have feeds := counts '\n' new planned.length
      have after' := counts '\r' new length
      have feeds' := counts '\n' new length
      have before' := counts '\r' old length
      have ends := counts '\n' old planned.length
      have ends' := counts '\n' old length
      rw [planned.updated] at after feeds
      rw [made, (count_translate updated).2] at after'
      rw [made, (count_translate updated).1] at feeds'
      rw [joined] at before' ends'
      rw [planned.content] at ends
      rw [List.count_eq_zero.mpr line, Nat.mul_zero] at ends ends'
      have bound := (@count_le_universalNewlines before).1
      have none : replacements * new.count '\n' = 0 := by omega
      refine Or.inl ⟨translate_universalNewlines (by omega) (by omega), line, ?_⟩
      rw [← List.count_eq_zero]
      exact (Nat.mul_eq_zero.mp none).resolve_left (Nat.ne_of_gt planned.some_made)

/-- A faithful edit is exact; an exact one is faithful, but for a string of several lines on
Windows. -/
theorem exactEdit_iff (fs : FileSystem) (request : EditRequest) (entry : FileEntry) :
    (Faithful fs request entry → ExactEdit fs request entry) ∧
      (ExactEdit fs request entry → Faithful fs request entry ∨
        fs.linesep = .crlf ∧ ∃ old, request.oldString = some old ∧ '\n' ∈ old) := by
  unfold ExactEdit Faithful execute
  cases made : plan fs request entry with
  | error message => simp
  | ok result =>
    obtain ⟨updated, replacements⟩ := result
    obtain ⟨before, old, new, parts, rfl, planned⟩ := plan_ok made
    obtain ⟨enough, needed⟩ := planned.replaced_iff fs.linesep
    simp only [Except.ok.injEq, forall_eq']
    cases written : fs.write (fs.linesep.translate updated) with
    | some failure => exact ⟨Eq.symm, fun same => Or.inl same.symm⟩
    | none =>
      dsimp only
      constructor
      · intro holds
        obtain ⟨keeps, once⟩ := holds before old new rfl planned.oldString planned.newString
        exact ⟨old, new, before, _, planned.oldString, planned.newString, rfl, rfl, enough keeps,
          once⟩
      · rintro ⟨old', new', _, _, known, given, same, rewritten, replaced, once⟩
        cases same
        cases rewritten
        obtain rfl := Option.some.inj (planned.oldString.symm.trans known)
        obtain rfl := Option.some.inj (planned.newString.symm.trans given)
        rcases needed replaced with keeps | ⟨windows, line⟩
        · left
          intro _ _ _ same' known' given'
          cases same'
          obtain rfl := Option.some.inj (known.symm.trans known')
          obtain rfl := Option.some.inj (given.symm.trans given')
          exact ⟨keeps, once⟩
        · exact Or.inr ⟨windows, old, known, line⟩

def sampleEdit : EditRequest where
  path := "a.txt"
  oldString := some ['b']
  newString := some ['c']

/-- The line ending in front of the edited line is lost. -/
theorem line_ending_lost : ¬ ExactEdit { resolve := id } sampleEdit
    (.file (some ['a', '\r', '\n', 'b'])) := by
  rintro ⟨old, new, before, text, known, given, same, rewritten, ⟨parts, length, joined, made⟩, -⟩
  cases known
  cases given
  cases same
  cases rewritten
  obtain ⟨first, second, rfl⟩ := List.length_eq_two.mp length
  have before' := congrArg List.length joined
  have after' := congrArg List.length made
  have shorter : (replace ['a', '\n', 'b'] ['b'] ['c'] 1).length = 3 := by decide
  change _ = (replace ['a', '\n', 'b'] ['b'] ['c'] 1).length at after'
  simp [List.intercalate] at before' after'
  omega

end Knoa.Tools
