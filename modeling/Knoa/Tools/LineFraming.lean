import Mathlib.Data.List.Basic

/-!
# Lines of a bounded stream

`iter_limited_lines` over the chunks of a response, against the lines of the whole stream.
-/
namespace Knoa.Tools

abbrev Bytes := List UInt8

/-- What ends the iteration: the bound of the stream, that of a line, or a line that is no UTF-8. -/
inductive LineFailure
  | total
  | line
  | utf8
  deriving DecidableEq, Repr

def decodeUtf8 (bytes : Bytes) : Option String := String.fromUTF8? ⟨bytes.toArray⟩

def newline : UInt8 := 10
def carriageReturn : UInt8 := 13

def stripReturn (line : Bytes) : Bytes :=
  if line.getLast? = some carriageReturn then line.dropLast else line

/-- A line of which the end was found. -/
def closeLine (maxLine : Nat) (line : Bytes) : Except LineFailure String :=
  if maxLine < (stripReturn line).length then .error .line
  else (decodeUtf8 (stripReturn line)).elim (.error .utf8) .ok

/-- The search for line ends in the buffer, with `line` found so far. -/
def drain (maxLine : Nat) (line : Bytes) : Bytes → List String × Except LineFailure Bytes
  | [] => ([], .ok line)
  | b :: rest =>
    if b = newline then
      match closeLine maxLine line with
      | .ok text => ((drain maxLine [] rest).map (text :: ·) id)
      | .error e => ([], .error e)
    else drain maxLine (line ++ [b]) rest

/-- What is left when the stream ends. -/
def finish (buffer : Bytes) : List String × Option LineFailure :=
  if buffer = [] then ([], none)
  else (decodeUtf8 buffer).elim ([], some .utf8) fun text => ([text], none)

/-- `iter_limited_lines`: the lines that it yields, and how it fails. -/
def iterLimitedLines (maxLine maxTotal : Nat) (total : Nat) (buffer : Bytes) :
    List Bytes → List String × Option LineFailure
  | [] => finish buffer
  | chunk :: chunks =>
    if maxTotal < total + chunk.length then ([], some .total)
    else
      match drain maxLine [] (buffer ++ chunk) with
      | (lines, .error e) => (lines, some e)
      | (lines, .ok buffer) =>
        if maxLine < buffer.length then (lines, some .line)
        else (iterLimitedLines maxLine maxTotal (total + chunk.length) buffer chunks).map (lines ++ ·) id

/-- The lines of a stream, each without one carriage return at its end. -/
def splitLines (line : Bytes) : Bytes → List Bytes
  | [] => if line = [] then [] else [stripReturn line]
  | b :: rest => if b = newline then stripReturn line :: splitLines [] rest else splitLines (line ++ [b]) rest

/-- The stream is read in one way, whatever its chunks. -/
def ReadAlike (maxLine maxTotal : Nat) (stream : Bytes) : Prop :=
  ∃ outcome, (∀ chunks : List Bytes, chunks.flatten = stream →
      iterLimitedLines maxLine maxTotal 0 [] chunks = outcome) ∧
    outcome.1.map some <+: (splitLines [] stream).map decodeUtf8 ∧
    (outcome.2 = none → outcome.1.map some = (splitLines [] stream).map decodeUtf8)

/-- No line that is reached is one byte too long by its carriage return, and the last line, where it
has no end and can be read, has none. -/
def Framed (maxLine : Nat) (line : Bytes) : Bytes → Prop
  | [] => line.getLast? = some carriageReturn → line.length ≤ maxLine → decodeUtf8 line = none
  | b :: rest =>
    if b = newline then
      (line.length = maxLine + 1 → line.getLast? ≠ some carriageReturn) ∧
        ((closeLine maxLine line).isOk = true → Framed maxLine [] rest)
    else Framed maxLine (line ++ [b]) rest

variable {maxLine maxTotal total : Nat} {line buffer stream rest : Bytes}

theorem drain_append (clear : newline ∉ buffer) :
    drain maxLine line (buffer ++ rest) = drain maxLine (line ++ buffer) rest := by
  induction buffer generalizing line with
  | nil => simp
  | cons b buffer ih =>
    simp only [List.mem_cons, not_or] at clear
    rw [List.cons_append, drain, if_neg (Ne.symm clear.1), ih clear.2]
    simp

theorem drain_clear {lines : List String} (clear : newline ∉ line)
    (h : drain maxLine line stream = (lines, .ok buffer)) : newline ∉ buffer := by
  induction stream generalizing line lines with
  | nil =>
    cases h
    exact clear
  | cons b stream ih =>
    unfold drain at h
    split at h
    · split at h
      · obtain ⟨_, left⟩ := Prod.mk.inj h
        exact ih List.not_mem_nil (Prod.ext rfl left)
      · cases h
    · rename_i other
      exact ih (by simpa [clear] using Ne.symm other) h

/-- The whole stream as one chunk, without a bound on it. -/
def reads (maxLine : Nat) (line stream : Bytes) : List String × Option LineFailure :=
  match drain maxLine line stream with
  | (lines, .error e) => (lines, some e)
  | (lines, .ok buffer) =>
    if maxLine < buffer.length then (lines, some .line) else (finish buffer).map (lines ++ ·) id

theorem closeLine_long (long : maxLine < line.length)
    (framed : line.length = maxLine + 1 → line.getLast? ≠ some carriageReturn) :
    closeLine maxLine line = .error .line := by
  unfold closeLine stripReturn
  split
  · rename_i ends
    rw [if_pos (by rw [List.length_dropLast]; by_contra short; exact framed (by omega) ends)]
  · rfl

theorem reads_long (long : maxLine < line.length) (framed : Framed maxLine line stream) :
    reads maxLine line stream = ([], some .line) := by
  induction stream generalizing line with
  | nil => simp [reads, drain, long]
  | cons b stream ih =>
    unfold Framed at framed
    split at framed
    · rename_i ended
      simp [reads, drain, ended, closeLine_long long framed.1]
    · rename_i other
      have later := ih (by rw [List.length_append]; omega) framed
      simpa [reads, drain, other] using later

theorem drain_comp (xs ys : Bytes) : drain maxLine line (xs ++ ys) =
    match drain maxLine line xs with
    | (lines, .error e) => (lines, .error e)
    | (lines, .ok buffer) => (drain maxLine buffer ys).map (lines ++ ·) id := by
  induction xs generalizing line with
  | nil => rfl
  | cons b xs ih =>
    rw [List.cons_append, drain, drain]
    split
    · cases closeLine maxLine line with
      | error e => rfl
      | ok text =>
        simp only [ih]
        rcases drain maxLine [] xs with ⟨lines, _ | buffer⟩ <;> rfl
    · exact ih

theorem reads_comp (xs ys : Bytes) : reads maxLine line (xs ++ ys) =
    match drain maxLine line xs with
    | (lines, .error e) => (lines, some e)
    | (lines, .ok buffer) => (reads maxLine buffer ys).map (lines ++ ·) id := by
  rw [reads, drain_comp]
  rcases drain maxLine line xs with ⟨lines, e | buffer⟩
  · rfl
  · simp only [reads]
    rcases drain maxLine buffer ys with ⟨later, e | left⟩
    · rfl
    · dsimp only [Prod.map, id]
      split <;> simp

theorem reads_newline : reads maxLine line (newline :: stream) = match closeLine maxLine line with
    | .ok text => (reads maxLine [] stream).map (text :: ·) id
    | .error e => ([], some e) := by
  rw [← List.singleton_append, reads_comp, drain, if_pos rfl]
  cases closeLine maxLine line <;> rfl

theorem reads_other {b : UInt8} (other : b ≠ newline) :
    reads maxLine line (b :: stream) = reads maxLine (line ++ [b]) stream := by
  rw [reads, drain, if_neg other, reads]

theorem Framed.onward {lines : List String} (framed : Framed maxLine line (stream ++ rest))
    (h : drain maxLine line stream = (lines, .ok buffer)) : Framed maxLine buffer rest := by
  induction stream generalizing line lines with
  | nil =>
    cases h
    exact framed
  | cons b stream ih =>
    rw [List.cons_append] at framed
    unfold drain at h
    unfold Framed at framed
    split at h
    · rename_i ended
      rw [if_pos ended] at framed
      split at h
      · rename_i closed
        obtain ⟨_, left⟩ := Prod.mk.inj h
        exact ih (framed.2 (by rw [closed]; rfl)) (Prod.ext rfl left)
      · cases h
    · rename_i other
      rw [if_neg other] at framed
      exact ih framed h

/-- Where its lines are framed, the chunks of a stream within the bound do not matter. -/
theorem iterLimitedLines_reads {chunks : List Bytes} (clear : newline ∉ buffer)
    (short : buffer.length ≤ maxLine) (fits : total + chunks.flatten.length ≤ maxTotal)
    (framed : Framed maxLine buffer chunks.flatten) :
    iterLimitedLines maxLine maxTotal total buffer chunks = reads maxLine buffer chunks.flatten := by
  induction chunks generalizing total buffer with
  | nil =>
    simp [iterLimitedLines, reads, drain, Nat.not_lt.mpr short]
    rfl
  | cons chunk chunks ih =>
    rw [List.flatten_cons] at fits framed ⊢
    rw [List.length_append] at fits
    rw [iterLimitedLines, if_neg (by omega), drain_append clear, List.nil_append, reads_comp]
    cases drained : drain maxLine buffer chunk with
    | mk lines result =>
      cases result with
      | error e => rfl
      | ok left =>
        have framed := framed.onward drained
        dsimp only
        split
        · rename_i long
          rw [reads_long long framed]
          simp
        · rw [ih (drain_clear clear drained) (by omega) (by omega) framed]

theorem splitLines_rest {lines : List String} (h : drain maxLine line stream = (lines, .ok buffer)) :
    ∃ raw, splitLines line (stream ++ rest) = raw ++ splitLines buffer rest := by
  induction stream generalizing line lines with
  | nil =>
    cases h
    exact ⟨[], rfl⟩
  | cons b stream ih =>
    rw [List.cons_append, splitLines]
    unfold drain at h
    split at h
    · rename_i ended
      rw [if_pos ended]
      split at h
      · obtain ⟨_, left⟩ := Prod.mk.inj h
        obtain ⟨raw, same⟩ := ih (Prod.ext rfl left)
        exact ⟨stripReturn line :: raw, by rw [same, List.cons_append]⟩
      · cases h
    · rename_i other
      rw [if_neg other]
      exact ih h

theorem closeLine_ok {text : String} (h : closeLine maxLine line = .ok text) :
    (stripReturn line).length ≤ maxLine ∧ decodeUtf8 (stripReturn line) = some text := by
  unfold closeLine at h
  split at h
  · cases h
  · rename_i short
    cases decoded : decodeUtf8 (stripReturn line) with
    | none =>
      rw [decoded] at h
      cases h
    | some found =>
      rw [decoded] at h
      cases h
      exact ⟨Nat.not_lt.mp short, rfl⟩

theorem reads_lines (framed : Framed maxLine line stream) :
    (reads maxLine line stream).1.map some <+: (splitLines line stream).map decodeUtf8 ∧
      ((reads maxLine line stream).2 = none →
        (reads maxLine line stream).1.map some = (splitLines line stream).map decodeUtf8) := by
  induction stream generalizing line with
  | nil =>
    simp only [reads, drain, splitLines]
    by_cases long : maxLine < line.length
    · simp [long]
    rw [if_neg long]
    by_cases empty : line = []
    · simp [finish, empty]
    · cases decoded : decodeUtf8 line with
      | none => simp [finish, empty, decoded]
      | some text =>
        have plain : stripReturn line = line := by
          rw [stripReturn, if_neg]
          intro ends
          simpa [decoded] using framed ends (Nat.not_lt.mp long)
        simp [finish, empty, decoded, plain]
  | cons b stream ih =>
    unfold Framed at framed
    rw [splitLines]
    split at framed
    · rename_i ended
      rw [ended, if_pos rfl, reads_newline]
      cases closed : closeLine maxLine line with
      | error e => simp
      | ok text =>
        obtain ⟨first, all⟩ := ih (framed.2 (by rw [closed]; rfl))
        simpa [(closeLine_ok closed).2] using ⟨first, all⟩
    · rename_i other
      rw [if_neg other, reads_other other]
      exact ih framed

theorem decodeUtf8_inj {a b : Bytes} {text : String} (first : decodeUtf8 a = some text)
    (second : decodeUtf8 b = some text) : a = b := by
  unfold decodeUtf8 String.fromUTF8? at first second
  split at first <;> split at second <;> cases first <;> cases second
  rfl

theorem framed_of_alike {before : Bytes} {lines : List String}
    {outcome : List String × Option LineFailure}
    (fits : (before ++ stream).length ≤ maxTotal)
    (drained : drain maxLine [] before = (lines, .ok line))
    (alike : ∀ chunks : List Bytes, chunks.flatten = before ++ stream →
      iterLimitedLines maxLine maxTotal 0 [] chunks = outcome)
    (whole : outcome.2 = none → outcome.1.map some =
      (splitLines [] (before ++ stream)).map decodeUtf8) :
    Framed maxLine line stream := by
  have once : outcome = reads maxLine [] (before ++ stream) := by
    rw [← alike [before ++ stream] (by simp), iterLimitedLines, if_neg (by omega), List.nil_append, reads]
    rcases drain maxLine [] (before ++ stream) with ⟨_, _ | left⟩
    · rfl
    · split <;> rfl
  induction stream generalizing before line lines with
  | nil =>
    rw [reads_comp, drained] at once
    intro ends short
    by_contra readable
    obtain ⟨text, decoded⟩ := Option.ne_none_iff_exists'.mp readable
    have some_line : line ≠ [] := by
      rintro rfl
      cases ends
    obtain ⟨raw, same⟩ := @splitLines_rest maxLine [] line before [] lines drained
    rw [once, same] at whole
    have equal := congrArg List.getLast?
      (whole (by simp [reads, drain, finish, Nat.not_lt.mpr short, some_line, decoded]))
    simp [reads, drain, finish, Nat.not_lt.mpr short, some_line, decoded, splitLines] at equal
    have shorter := decodeUtf8_inj decoded equal.symm
    rw [stripReturn, if_pos ends] at shorter
    have cut := congrArg List.length shorter
    rw [List.length_dropLast] at cut
    have := List.length_pos_iff.mpr some_line
    omega
  | cons b stream ih =>
    have next : (before ++ [b]) ++ stream = before ++ b :: stream := by simp
    have later {lines' : List String} {line' : Bytes}
        (drained : drain maxLine [] (before ++ [b]) = (lines', .ok line')) : Framed maxLine line' stream :=
      @ih line' (before ++ [b]) lines' (next ▸ fits) drained (next ▸ alike) (next ▸ whole) (next ▸ once)
    unfold Framed
    split
    · rename_i ended
      subst ended
      refine ⟨fun long ends => ?_, fun closes => ?_⟩
      · have twice := alike [before, newline :: stream] (by simp)
        rw [List.length_append] at fits
        rw [iterLimitedLines, if_neg (by omega), List.nil_append, drained] at twice
        simp only [if_pos (by omega : maxLine < line.length)] at twice
        rw [← twice, reads_comp, drained] at once
        simp only [reads_newline] at once
        cases closed : closeLine maxLine line with
        | error e =>
          rw [closed] at once
          obtain ⟨-, same⟩ := Prod.mk.inj once
          cases same
          unfold closeLine stripReturn at closed
          rw [if_pos ends, List.length_dropLast, long, Nat.add_sub_cancel, if_neg (Nat.lt_irrefl _)] at closed
          cases decoded : decodeUtf8 line.dropLast <;> rw [decoded] at closed <;> cases closed
        | ok text =>
          rw [closed] at once
          have more := congrArg List.length (Prod.mk.inj once).1
          simp at more
      · cases closed : closeLine maxLine line with
        | error e =>
          rw [closed] at closes
          cases closes
        | ok text =>
          refine @later (lines ++ [text]) [] ?_
          rw [drain_comp, drained]
          simp [drain, closed]
    · rename_i other
      refine @later lines (line ++ [b]) ?_
      rw [drain_comp, drained]
      simp [drain, other]

theorem over_total {chunks : List Bytes} (beyond : maxTotal < total + chunks.flatten.length)
    (clear : newline ∉ buffer ++ chunks.flatten.take (maxTotal - total)) (short : maxTotal ≤ maxLine)
    (held : buffer.length ≤ total) (within : total ≤ maxTotal) :
    iterLimitedLines maxLine maxTotal total buffer chunks = ([], some .total) := by
  induction chunks generalizing total buffer with
  | nil =>
    rw [List.flatten_nil, List.length_nil] at beyond
    omega
  | cons chunk chunks ih =>
    rw [iterLimitedLines]
    split
    · rfl
    · rw [List.flatten_cons] at clear beyond
      rw [List.take_append, List.take_of_length_le (by omega), ← List.append_assoc] at clear
      rw [List.length_append] at beyond
      have chunk_clear : newline ∉ buffer ++ chunk := fun here => clear (List.mem_append_left _ here)
      have drained := @drain_append maxLine [] (buffer ++ chunk) [] chunk_clear
      rw [List.append_nil, List.nil_append, drain] at drained
      have length : (buffer ++ chunk).length = buffer.length + chunk.length := List.length_append
      rw [Nat.sub_sub] at clear
      rw [drained]
      dsimp only
      rw [if_neg (by omega), ih (by omega) clear (by omega) (by omega)]
      rfl

theorem drain_error {lines : List String} {e : LineFailure}
    (h : drain maxLine line stream = (lines, .error e)) : e ≠ .total := by
  induction stream generalizing line lines with
  | nil => cases h
  | cons b stream ih =>
    unfold drain at h
    split at h
    · split at h
      · exact ih (Prod.ext rfl (Prod.mk.inj h).2)
      · rename_i closed
        cases h
        unfold closeLine at closed
        split at closed
        · cases closed
          nofun
        · cases decoded : decodeUtf8 (stripReturn line) <;> rw [decoded] at closed <;> cases closed
          nofun
    · exact ih h

theorem drain_silent (h : drain maxLine line stream = ([], .ok buffer)) :
    newline ∉ stream ∧ buffer = line ++ stream := by
  induction stream generalizing line with
  | nil =>
    cases h
    simp
  | cons b stream ih =>
    unfold drain at h
    split at h
    · split at h
      · cases (Prod.mk.inj h).1
      · cases h
    · rename_i other
      obtain ⟨clear, rfl⟩ := ih h
      simp [clear, Ne.symm other]

/-- The chunks of a stream matter unless its lines are framed, or its bound stands before any. -/
theorem readAlike_iff (maxLine maxTotal : Nat) (stream : Bytes) : ReadAlike maxLine maxTotal stream ↔
    stream.length ≤ maxTotal ∧ Framed maxLine [] stream ∨
      maxTotal < stream.length ∧ maxTotal ≤ maxLine ∧ newline ∉ stream.take maxTotal := by
  constructor
  · rintro ⟨outcome, alike, -, whole⟩
    by_cases fits : stream.length ≤ maxTotal
    · exact .inl ⟨fits, @framed_of_alike maxLine maxTotal [] stream [] [] outcome fits rfl alike whole⟩
    · have beyond := Nat.not_le.mp fits
      refine .inr ⟨beyond, ?_⟩
      have once := alike [stream] (by simp)
      rw [iterLimitedLines, if_pos (by omega)] at once
      have length : (stream.take maxTotal).length = maxTotal := by
        rw [List.length_take]
        omega
      have twice := alike [stream.take maxTotal, stream.drop maxTotal] (by simp)
      rw [← once, iterLimitedLines, if_neg (by omega), List.nil_append] at twice
      cases drained : drain maxLine [] (stream.take maxTotal) with
      | mk lines result =>
        rw [drained] at twice
        cases result with
        | error e => exact absurd (Option.some.inj (Prod.mk.inj twice).2) (drain_error drained)
        | ok left =>
          dsimp only at twice
          split at twice
          · cases (Prod.mk.inj twice).2
          · rename_i short
            rw [iterLimitedLines, if_pos (by rw [List.length_drop]; omega)] at twice
            have silent : lines = [] := by simpa using (Prod.mk.inj twice).1
            rw [silent] at drained
            obtain ⟨clear, rfl⟩ := drain_silent drained
            exact ⟨by simpa [length] using short, clear⟩
  · rintro (⟨fits, framed⟩ | ⟨beyond, short, clear⟩)
    · refine ⟨reads maxLine [] stream, ?_, reads_lines framed⟩
      rintro chunks rfl
      exact iterLimitedLines_reads List.not_mem_nil (Nat.zero_le _) (by omega) framed
    · refine ⟨([], some .total), ?_, List.nil_prefix, nofun⟩
      rintro chunks rfl
      exact over_total (by omega) (by simpa using clear) short (Nat.zero_le _) (Nat.zero_le _)

/-- Two bytes, a carriage return and the end of the line, under a bound of no byte a line. -/
theorem lineEnd_not_readAlike : ¬ ∀ (maxLine maxTotal : Nat) (stream : Bytes),
    ReadAlike maxLine maxTotal stream := by
  intro claim
  obtain ⟨outcome, alike, -⟩ := claim 0 2 [13, 10]
  have once := alike [[13, 10]] rfl
  have twice := alike [[13], [10]] rfl
  have read : (iterLimitedLines 0 2 0 [] [[13, 10]]).2 = none := by decide +kernel
  have failed : (iterLimitedLines 0 2 0 [] [[13], [10]]).2 = some .line := by decide +kernel
  rw [once] at read
  rw [twice, read] at failed
  cases failed

end Knoa.Tools
