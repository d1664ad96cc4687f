import Knoa.Library.Cursor
import Knoa.Tasks.Invariants

/-!
# Following a principal's feed

`principal_events` reads pages of the feed and, at its end, waits for the version of the
hub to move on from the one it saw before it read.
-/
namespace Knoa.Tasks
open Relational Transaction
open Transition (trace)
open Cursor (after taken)

structure PrincipalTaskEvent where
  feedEventId : Nat
  principalId : String
  event : TaskEvent
  deriving DecidableEq, Repr

def joinEvent (s : Store) (row : FeedRow) : Option PrincipalTaskEvent :=
  (eventOf s row.taskId row.taskEventSeq).map (fun event =>
    ⟨row.feedEventId, row.principalId, event⟩)

def listPrincipalEvents (s : Store) (principalId : String) (afterId : Int) (limit : Nat) :
    Except TaskError (List PrincipalTaskEvent) := do
  let principal ← normalizeIdentifier principalId "principal_id" 256
  require (0 ≤ afterId) (.value "after_id must not be negative")
  require (1 ≤ limit ∧ limit ≤ 1000)
    (.value "Principal Task event limit must be between 1 and 1000")
  let rows := s.feed.rows.filter (fun row =>
    row.principalId == principal && decide (afterId < row.feedEventId))
  return ((rows.insertionSort (fun a b => a.feedEventId ≤ b.feedEventId)).filterMap
    (joinEvent s)).take limit

inductive FeedPhase
  | opening
  | reading
  | yielding (page : List PrincipalTaskEvent)
  | waiting
  | raised (error : TaskError)
  deriving DecidableEq

/-- One call of `principal_events` with its local variables, and what it has yielded. -/
structure FeedReader where
  principalId : String
  reconciliationInterval : Time := 15
  cursor : Int
  feedVersion : Nat := 0
  phase : FeedPhase := .opening
  yielded : List PrincipalTaskEvent := []
  deriving DecidableEq

/-- The reader beside the repository and the hub. `published` has one entry for each
`publish`: the feed rows of its event. -/
structure Feeding where
  store : Store
  published : List (List FeedRow)
  reader : FeedReader

/-- `_feed_version`. -/
def Feeding.feedVersion (s : Feeding) : Nat := s.published.length

inductive FeedAct
  | repository (op : Op)
  | publish (taskId : String) (eventSeq : Nat)
  | enter
  | read
  | next
  | wake
  | timeout

namespace Feeding

variable (env : Env)

def raising (s : Feeding) (error : TaskError) : Feeding :=
  { s with reader := { s.reader with phase := .raised error } }

def enter (s : Feeding) : Feeding :=
  if 1 ≤ s.reader.reconciliationInterval ∧ s.reader.reconciliationInterval ≤ 300 then
    { s with reader := { s.reader with feedVersion := s.feedVersion, phase := .reading } }
  else
    s.raising (.value "Principal event reconciliation interval must be 1-300 seconds")

def read (s : Feeding) : Feeding :=
  match listPrincipalEvents s.store s.reader.principalId s.reader.cursor 200 with
  | .error e => s.raising e
  | .ok [] => { s with reader := { s.reader with phase := .waiting } }
  | .ok page => { s with reader := { s.reader with phase := .yielding page } }

/-- The consumer takes the next event of the page. -/
def yieldNext (s : Feeding) (first : PrincipalTaskEvent) (rest : List PrincipalTaskEvent) :
    Feeding :=
  { s with reader :=
    { s.reader with
      cursor := first.feedEventId, yielded := s.reader.yielded ++ [first],
      phase := if rest = [] then .reading else .yielding rest } }

/-- `wait_for_feed_change` returns. -/
def woken (s : Feeding) : Feeding :=
  { s with reader := { s.reader with feedVersion := s.feedVersion, phase := .reading } }

def step (s : Feeding) : FeedAct → Option Feeding
  | .repository op => (Tasks.step env s.store op).map (fun store => { s with store })
  | .publish taskId eventSeq =>
    if (eventOf s.store taskId eventSeq).isSome then
      some { s with published := s.published ++ [s.store.feed.rows.filter (fun row =>
        row.taskId == taskId && row.taskEventSeq == eventSeq)] }
    else none
  | .enter => if s.reader.phase = .opening then some s.enter else none
  | .read => if s.reader.phase = .reading then some s.read else none
  | .next =>
    match s.reader.phase with
    | .yielding (first :: rest) => some (s.yieldNext first rest)
    | _ => none
  | .wake =>
    if s.reader.phase = .waiting ∧ s.feedVersion ≠ s.reader.feedVersion then some s.woken
    else none
  | .timeout => if s.reader.phase = .waiting then some s.woken else none

end Feeding

/-- The steps of the subscriber that read a page or take an event of it. -/
def FeedAct.advances : FeedAct → Bool
  | .read | .next => true
  | _ => false

/-- The arguments that the call refuses. -/
def FeedReader.Refused (r : FeedReader) (start : Int) : Prop :=
  strip r.principalId = "" ∨ 256 < (strip r.principalId).length ∨ start < 0 ∨
    ¬(1 ≤ r.reconciliationInterval ∧ r.reconciliationInterval ≤ 300)

structure FeedEntry where
  feedEventId : Int
  principalId : String
  taskId : String
  eventSeq : Nat
  deriving DecidableEq

def FeedRow.entry (row : FeedRow) : FeedEntry where
  feedEventId := row.feedEventId
  principalId := row.principalId
  taskId := row.taskId
  eventSeq := row.taskEventSeq

def PrincipalTaskEvent.entry (e : PrincipalTaskEvent) : FeedEntry where
  feedEventId := e.feedEventId
  principalId := e.principalId
  taskId := e.event.taskId
  eventSeq := e.event.eventSeq

def principalFeed (s : Store) (principalId : String) : List FeedEntry :=
  (s.feed.rows.filter (fun row => row.principalId == strip principalId)).map FeedRow.entry

/-- The committed events that the subscriber has not reached. -/
def Feeding.unread (s : Feeding) (principalId : String) : List FeedEntry :=
  after FeedEntry.feedEventId (principalFeed s.store principalId) s.reader.cursor

/-- What a subscriber that started after `start` has received, and that it receives the rest: it
always has a step to take, and after two of them for each event that is committed now, it has
received them all. -/
structure ExactlyOnce (env : Env) (principalId : String) (start : Int) (s : Feeding) : Prop where
  all : s.reader.yielded.map PrincipalTaskEvent.entry =
    taken FeedEntry.feedEventId (principalFeed s.store principalId) start s.reader.cursor
  ordered : (s.reader.yielded.map PrincipalTaskEvent.feedEventId).Pairwise (· < ·)
  own : ∀ e ∈ s.reader.yielded, e.principalId = strip principalId ∧
    ∃ task ∈ s.store.tasks.rows, task.taskId = e.event.taskId ∧ task.principalId = strip principalId
  awake : s.reader.phase = .waiting → ∀ rows ∈ s.published, ∀ row ∈ rows,
    row.principalId = strip principalId → s.reader.cursor < row.feedEventId →
      (s.step env .wake).isSome = true
  moves : (∃ act ∈ [FeedAct.enter, .read, .next, .timeout], (s.step env act).isSome = true) ∨
    s.reader.Refused start
  delivered : ∀ later, 2 * (s.unread principalId).length ≤
      (Transition.accepted (Feeding.step env) s later).countP (fun taken => taken.2.advances) →
    (Transition.final (Feeding.step env) s later).reader.Refused start ∨
      ∀ entry ∈ principalFeed s.store principalId, start < entry.feedEventId →
        entry ∈ (Transition.final (Feeding.step env) s later).reader.yielded.map
          PrincipalTaskEvent.entry

section Pages

variable {s s' : Store} {op : Op} {principalId : String}

theorem principalFeed_sorted (sound : FeedSound s) : (principalFeed s principalId).Pairwise
    (fun a b => a.feedEventId < b.feedEventId) := by
  have sorted := List.pairwise_map.mp sound.increasing
  rw [principalFeed, List.pairwise_map]
  refine (sorted.filter _).imp ?_
  intro a b less
  exact Int.ofNat_lt.mpr less

theorem joinEvent_entries {rows : List FeedRow} (fed : ∀ row ∈ rows, Fed s row) :
    (rows.filterMap (joinEvent s)).map PrincipalTaskEvent.entry = rows.map FeedRow.entry := by
  induction rows with
  | nil => rfl
  | cons row rows ih =>
    obtain ⟨listed, -⟩ := fed row List.mem_cons_self
    obtain ⟨event, member, key⟩ := List.mem_map.mp listed
    have found : eventOf s row.taskId row.taskEventSeq = some event := by
      rw [eventOf, ← key]
      exact Table.lookup_of_mem member
    have joined : joinEvent s row = some ⟨row.feedEventId, row.principalId, event⟩ := by
      rw [joinEvent, found]
      rfl
    have names : event.taskId = row.taskId ∧ event.eventSeq = row.taskEventSeq := Prod.mk.inj key
    rw [List.filterMap_cons_some joined, List.map_cons, List.map_cons,
      ih (fun other member => fed other (List.mem_cons_of_mem _ member))]
    simp [PrincipalTaskEvent.entry, FeedRow.entry, names.1, names.2]

theorem listPrincipalEvents_page (sound : FeedSound s) (fed : ∀ row ∈ s.feed.rows, Fed s row)
    {afterId : Int} {limit : Nat} {page : List PrincipalTaskEvent}
    (h : listPrincipalEvents s principalId afterId limit = .ok page) :
    1 ≤ limit ∧ page.map PrincipalTaskEvent.entry =
      (after FeedEntry.feedEventId (principalFeed s principalId) afterId).take limit := by
  obtain ⟨principal, normal, -, -, _, bound, h⟩ := of_bind₃ h
  cases h
  refine ⟨(require_ok_iff.mp bound).1, ?_⟩
  have sorted := (List.pairwise_map.mp sound.increasing).filter (fun row =>
    row.principalId == principal && decide (afterId < row.feedEventId))
  rw [List.Pairwise.insertionSort_eq (sorted.imp Nat.le_of_lt), List.map_take, joinEvent_entries]
  · congr 1
    rw [normalizeIdentifier_ok normal, principalFeed, after, List.filter_map, List.filter_filter]
    congr 1
    apply List.filter_congr
    intro row _
    rw [Bool.and_comm]
    rfl
  · intro row member
    exact fed row (List.mem_filter.mp member).1

theorem listPrincipalEvents_fails {afterId : Int} {e : TaskError}
    (h : listPrincipalEvents s principalId afterId 200 = .error e) :
    strip principalId = "" ∨ 256 < (strip principalId).length ∨ afterId < 0 := by
  by_contra accepted
  simp only [not_or, not_lt] at accepted
  obtain ⟨named, short, started⟩ := accepted
  have normal : normalizeIdentifier principalId "principal_id" 256 = .ok (strip principalId) :=
    normalizeIdentifier_ok_iff.mpr ⟨rfl, named, short⟩
  have room : 1 ≤ 200 ∧ 200 ≤ 1000 := by decide
  simp only [listPrincipalEvents, normal, require_of started, require_of room, ok_bind] at h
  cases h

end Pages

section Following

variable {env : Env} {principalId : String} {start : Int} {s s' : Feeding} {store : Store} {op : Op}

/-- A reader at work. What was published before it last saw the version, it has read
by the time it waits. -/
structure FollowsFeed (principalId : String) (start : Int) (s : Feeding) : Prop where
  sound : Sound s.store
  fed : ∀ row ∈ s.store.feed.rows, Fed s.store row
  principal : s.reader.principalId = principalId
  begun : start ≤ s.reader.cursor
  bounded : s.reader.cursor = start ∨ s.reader.cursor ≤ s.store.feedSequence
  all : s.reader.yielded.map PrincipalTaskEvent.entry =
    taken FeedEntry.feedEventId (principalFeed s.store principalId) start s.reader.cursor
  ahead : ∀ page, s.reader.phase = .yielding page → page.map PrincipalTaskEvent.entry <+:
    after FeedEntry.feedEventId (principalFeed s.store principalId) s.reader.cursor
  committed : ∀ rows ∈ s.published, ∀ row ∈ rows, row ∈ s.store.feed.rows
  seen : s.reader.feedVersion ≤ s.feedVersion
  waited : s.reader.phase = .waiting → ∀ rows ∈ s.published.take s.reader.feedVersion,
    ∀ row ∈ rows, row.principalId = strip principalId → (row.feedEventId : Int) ≤ s.reader.cursor
  full : s.reader.phase ≠ .yielding []
  refused : ∀ error, s.reader.phase = .raised error → s.reader.Refused start

theorem principalFeed_grows {s s' : Store} (grows : FeedGrows s s') : ∃ added,
    principalFeed s' principalId = principalFeed s principalId ++ added ∧
      ∀ entry ∈ added, (s.feedSequence : Int) < entry.feedEventId := by
  obtain ⟨added, rows, -, bound⟩ := grows.rows
  refine ⟨(added.filter (fun row => row.principalId == strip principalId)).map FeedRow.entry, ?_, ?_⟩
  · rw [principalFeed, rows, List.filter_append, List.map_append]
    rfl
  · intro entry member
    obtain ⟨row, selected, rfl⟩ := List.mem_map.mp member
    exact Int.ofNat_lt.mpr (bound row (List.mem_filter.mp selected).1).1

section
variable (h : FollowsFeed principalId start s)
include h

theorem FollowsFeed.repository (taken : Tasks.step env s.store op = some store) :
    FollowsFeed principalId start { s with store } := by
  have refines := step_refines h.sound.rooted taken
  obtain ⟨added, grown, behind⟩ := principalFeed_grows refines.feed
  obtain ⟨newer, rows, -⟩ := refines.feed.rows
  have counter := refines.feed.counter
  have kept : Cursor.taken FeedEntry.feedEventId (principalFeed store principalId) start
      s.reader.cursor = Cursor.taken FeedEntry.feedEventId (principalFeed s.store principalId)
        start s.reader.cursor := by
    rw [grown]
    rcases h.bounded with here | low
    · rw [here, Cursor.taken_self, Cursor.taken_self]
    · exact Cursor.taken_append (fun entry member => low.trans_lt (behind entry member))
  refine ⟨h.sound.kept taken, ?_, h.principal, h.begun, ?_, h.all.trans kept.symm, ?_, ?_, h.seen,
    h.waited, h.full, h.refused⟩
  · intro row member
    exact (refines.journal.fed row member).elim
      (fun old => refines.journal.fed_kept (h.fed row old)) id
  · exact h.bounded.imp_right (fun low => low.trans (Int.ofNat_le.mpr counter))
  · intro page phase
    rw [grown]
    exact Cursor.prefix_after_append (h.ahead page phase)
  · intro published member row listed
    rw [rows]
    exact List.mem_append_left _ (h.committed published member row listed)

theorem FollowsFeed.publish {taskId : String} {eventSeq : Nat} :
    FollowsFeed principalId start { s with
      published := s.published ++ [s.store.feed.rows.filter (fun row =>
        row.taskId == taskId && row.taskEventSeq == eventSeq)] } := by
  have seen := h.seen
  refine ⟨h.sound, h.fed, h.principal, h.begun, h.bounded, h.all, h.ahead, ?_, ?_, ?_, h.full,
    h.refused⟩
  · intro rows member row listed
    rcases List.mem_concat.mp member with old | new
    · exact h.committed rows old row listed
    · rw [new] at listed
      exact (List.mem_filter.mp listed).1
  · unfold Feeding.feedVersion at seen ⊢
    rw [List.length_append]
    exact Nat.le_add_right_of_le seen
  · intro waits rows member
    rw [List.take_append_of_le_length seen] at member
    exact h.waited waits rows member

theorem FollowsFeed.turn {phase : FeedPhase} {feedVersion : Nat}
    (seen : feedVersion ≤ s.feedVersion) (empty : ∀ page, phase ≠ .yielding page)
    (busy : phase ≠ .waiting) (raised : ∀ error, phase = .raised error → s.reader.Refused start) :
    FollowsFeed principalId start { s with reader := { s.reader with feedVersion, phase } } :=
  ⟨h.sound, h.fed, h.principal, h.begun, h.bounded, h.all, fun page held => absurd held (empty page),
    h.committed, seen, fun waits => absurd waits busy, empty [], raised⟩

theorem FollowsFeed.emptied
    (none_left : after FeedEntry.feedEventId (principalFeed s.store principalId)
      s.reader.cursor = []) :
    FollowsFeed principalId start { s with reader := { s.reader with phase := .waiting } } := by
  refine ⟨h.sound, h.fed, h.principal, h.begun, h.bounded, h.all, by simp, h.committed, h.seen, ?_,
    by simp, by simp⟩
  intro _ rows member row listed own
  have stored := h.committed rows (List.mem_of_mem_take member) row listed
  have entered : row.entry ∈ principalFeed s.store principalId :=
    List.mem_map_of_mem (List.mem_filter.mpr ⟨stored, by simpa using own⟩)
  rw [after, List.filter_eq_nil_iff] at none_left
  have reached := none_left row.entry entered
  rw [decide_eq_true_eq, not_lt] at reached
  exact reached

theorem FollowsFeed.read : FollowsFeed principalId start s.read := by
  unfold Feeding.read
  split
  · rename_i failed
    refine h.turn h.seen (by simp) (by simp) fun _ _ => ?_
    have begun := h.begun
    rcases listPrincipalEvents_fails failed with unnamed | long | negative
    · exact Or.inl unnamed
    · exact Or.inr (Or.inl long)
    · exact Or.inr (Or.inr (Or.inl (by omega)))
  · rename_i listed
    rw [h.principal] at listed
    obtain ⟨some_room, page⟩ := listPrincipalEvents_page h.sound.feed h.fed listed
    apply h.emptied
    rw [List.map_nil] at page
    exact (List.take_eq_nil_iff.mp page.symm).resolve_left (by omega)
  · rename_i page some_ listed
    rw [h.principal] at listed
    obtain ⟨-, ahead⟩ := listPrincipalEvents_page h.sound.feed h.fed listed
    refine ⟨h.sound, h.fed, h.principal, h.begun, h.bounded, h.all, ?_, h.committed, h.seen, by simp,
      by simpa using some_, by simp⟩
    rintro _ ⟨⟩
    rw [ahead]
    exact List.take_prefix _ _

theorem FollowsFeed.yieldNext {first : PrincipalTaskEvent}
    {rest : List PrincipalTaskEvent} (phase : s.reader.phase = .yielding (first :: rest)) :
    FollowsFeed principalId start (s.yieldNext first rest) := by
  have page := h.ahead _ phase
  rw [List.map_cons] at page
  obtain ⟨took, left⟩ := Cursor.taken_prefix (principalFeed_sorted h.sound.feed) h.begun page
  have member := Cursor.mem_after.mp (page.subset List.mem_cons_self)
  obtain ⟨row, selected, same⟩ := List.mem_map.mp member.1
  have key : (row.feedEventId : Int) = first.feedEventId := congrArg FeedEntry.feedEventId same
  have low := h.sound.feed.bounded row (List.mem_filter.mp selected).1
  have begun := h.begun
  have later : s.reader.cursor < (first.feedEventId : Int) := member.2
  refine ⟨h.sound, h.fed, h.principal, ?_, ?_, ?_, ?_, h.committed, h.seen, ?_, ?_, ?_⟩
  · exact begun.trans later.le
  · refine Or.inr ?_
    change (first.feedEventId : Int) ≤ s.store.feedSequence
    omega
  · change (s.reader.yielded ++ [first]).map PrincipalTaskEvent.entry = _
    rw [List.map_append, h.all, List.map_singleton]
    exact took.symm
  · intro held phase'
    dsimp only [Feeding.yieldNext] at phase'
    split at phase'
    · cases phase'
    · cases phase'
      exact left
  · intro waits
    dsimp only [Feeding.yieldNext] at waits
    split at waits <;> cases waits
  · dsimp only [Feeding.yieldNext]
    split
    · nofun
    · simpa
  · intro error raised
    dsimp only [Feeding.yieldNext] at raised
    split at raised <;> cases raised

theorem FollowsFeed.kept {act : FeedAct}
    (taken : s.step env act = some s') : FollowsFeed principalId start s' := by
  cases act with
  | repository op =>
    obtain ⟨store, called, rfl⟩ := Option.map_eq_some_iff.mp taken
    exact h.repository called
  | publish taskId eventSeq =>
    obtain ⟨-, ⟨⟩⟩ := Option.ite_none_right_eq_some.mp taken
    exact h.publish
  | enter =>
    obtain ⟨-, ⟨⟩⟩ := Option.ite_none_right_eq_some.mp taken
    unfold Feeding.enter
    split
    · exact h.turn (Nat.le_refl _) (by simp) (by simp) (by simp)
    · rename_i outside
      exact h.turn h.seen (by simp) (by simp) fun _ _ => Or.inr (Or.inr (Or.inr outside))
  | read =>
    obtain ⟨-, ⟨⟩⟩ := Option.ite_none_right_eq_some.mp taken
    exact h.read
  | next =>
    unfold Feeding.step at taken
    dsimp only at taken
    split at taken <;> cases taken
    rename_i first rest phase
    exact h.yieldNext phase
  | wake | timeout =>
    obtain ⟨-, ⟨⟩⟩ := Option.ite_none_right_eq_some.mp taken
    exact h.turn (Nat.le_refl _) (by simp) (by simp) (by simp)

theorem FollowsFeed.moves :
    (∃ act ∈ [FeedAct.enter, .read, .next, .timeout], (s.step env act).isSome = true) ∨
      s.reader.Refused start := by
  cases phase : s.reader.phase with
  | opening => exact Or.inl ⟨.enter, by simp, by simp [Feeding.step, phase]⟩
  | reading => exact Or.inl ⟨.read, by simp, by simp [Feeding.step, phase]⟩
  | yielding page =>
    cases page with
    | nil => exact absurd phase h.full
    | cons first rest => exact Or.inl ⟨.next, by simp, by simp [Feeding.step, phase]⟩
  | waiting => exact Or.inl ⟨.timeout, by simp, by simp [Feeding.step, phase]⟩
  | raised error => exact Or.inr (h.refused error phase)

end

/-- Twice the entries of `feed` that the reader has not reached, one less where it has a page. -/
def Feeding.distance (feed : List FeedEntry) (s : Feeding) : Nat :=
  let unread := (after FeedEntry.feedEventId feed s.reader.cursor).length
  match s.reader.phase with
  | .raised _ => 0
  | .yielding _ => 2 * unread - 1
  | _ => 2 * unread

variable {feed : List FeedEntry}

theorem distance_enter : s.enter.distance feed ≤ 2 *
    (after FeedEntry.feedEventId feed s.reader.cursor).length := by
  unfold Feeding.enter Feeding.raising
  split
  · exact le_refl _
  · exact Nat.zero_le _

theorem FollowsFeed.distance_read (h : FollowsFeed principalId start s) {added : List FeedEntry}
    (grown : principalFeed s.store principalId = feed ++ added) :
    s.read.distance feed ≤
      2 * (after FeedEntry.feedEventId feed s.reader.cursor).length - 1 := by
  unfold Feeding.read Feeding.raising
  split
  · exact Nat.zero_le _
  · rename_i listed
    rw [h.principal] at listed
    obtain ⟨some_room, page⟩ := listPrincipalEvents_page h.sound.feed h.fed listed
    have none_left := (List.take_eq_nil_iff.mp page.symm).resolve_left (by omega)
    rw [grown, Cursor.after_append, List.append_eq_nil_iff] at none_left
    simp [Feeding.distance, none_left.1]
  · exact le_refl _

theorem FollowsFeed.distance_next (h : FollowsFeed principalId start s) {added : List FeedEntry}
    (grown : principalFeed s.store principalId = feed ++ added) {first : PrincipalTaskEvent}
    {rest : List PrincipalTaskEvent} (phase : s.reader.phase = .yielding (first :: rest)) :
    (s.yieldNext first rest).distance feed ≤ s.distance feed - 1 := by
  have sorted := @principalFeed_sorted _ principalId h.sound.feed
  have page := h.ahead _ phase
  rw [grown] at sorted page
  have fewer := Cursor.length_after_next (List.pairwise_append.mp sorted).1 page
  have before : s.distance feed =
      2 * (after FeedEntry.feedEventId feed s.reader.cursor).length - 1 := by
    simp [Feeding.distance, phase]
  have later : (s.yieldNext first rest).distance feed ≤
      2 * (after FeedEntry.feedEventId feed first.feedEventId).length := by
    unfold Feeding.distance Feeding.yieldNext
    dsimp only
    split <;> omega
  change (after FeedEntry.feedEventId feed (first.feedEventId : Int)).length = _ at fewer
  omega

theorem distance_step (s : Feeding) (act : FeedAct) (s' : Feeding)
    (h : FollowsFeed principalId start s ∧
      ∃ added, principalFeed s.store principalId = feed ++ added)
    (taken : s.step env act = some s') :
    (FollowsFeed principalId start s' ∧
      ∃ added, principalFeed s'.store principalId = feed ++ added) ∧
      s'.distance feed ≤ s.distance feed - if act.advances then 1 else 0 := by
  obtain ⟨follows, added, grown⟩ := h
  have kept := follows.kept taken
  cases act with
  | repository op =>
    obtain ⟨store, called, rfl⟩ := Option.map_eq_some_iff.mp taken
    obtain ⟨newer, grows, -⟩ := @principalFeed_grows principalId _ _
      (step_refines follows.sound.rooted called).feed
    exact ⟨⟨kept, added ++ newer, by rw [grows, grown, List.append_assoc]⟩, le_refl _⟩
  | publish taskId eventSeq =>
    obtain ⟨-, ⟨⟩⟩ := Option.ite_none_right_eq_some.mp taken
    exact ⟨⟨kept, added, grown⟩, le_refl _⟩
  | enter =>
    obtain ⟨phase, ⟨⟩⟩ := Option.ite_none_right_eq_some.mp taken
    refine ⟨⟨kept, added, ?_⟩, ?_⟩
    · unfold Feeding.enter
      split <;> exact grown
    · simpa [Feeding.distance, phase, FeedAct.advances] using @distance_enter s feed
  | read =>
    obtain ⟨phase, ⟨⟩⟩ := Option.ite_none_right_eq_some.mp taken
    refine ⟨⟨kept, added, ?_⟩, ?_⟩
    · unfold Feeding.read
      split <;> exact grown
    · simpa [Feeding.distance, phase, FeedAct.advances] using follows.distance_read grown
  | next =>
    unfold Feeding.step at taken
    dsimp only at taken
    split at taken <;> cases taken
    rename_i first rest phase
    exact ⟨⟨kept, added, grown⟩, follows.distance_next grown phase⟩
  | wake =>
    obtain ⟨⟨phase, -⟩, ⟨⟩⟩ := Option.ite_none_right_eq_some.mp taken
    exact ⟨⟨kept, added, grown⟩, by
      simp [Feeding.distance, Feeding.woken, phase, FeedAct.advances]⟩
  | timeout =>
    obtain ⟨phase, ⟨⟩⟩ := Option.ite_none_right_eq_some.mp taken
    exact ⟨⟨kept, added, grown⟩, by
      simp [Feeding.distance, Feeding.woken, phase, FeedAct.advances]⟩

theorem FollowsFeed.delivered (h : FollowsFeed principalId start s) (later : List FeedAct)
    (enough : 2 * (s.unread principalId).length ≤
      (Transition.accepted (Feeding.step env) s later).countP (fun taken => taken.2.advances)) :
    (Transition.final (Feeding.step env) s later).reader.Refused start ∨
      ∀ entry ∈ principalFeed s.store principalId, start < entry.feedEventId →
        entry ∈ (Transition.final (Feeding.step env) s later).reader.yielded.map
          PrincipalTaskEvent.entry := by
  have begins : FollowsFeed principalId start s ∧ ∃ added,
      principalFeed s.store principalId = principalFeed s.store principalId ++ added :=
    ⟨h, [], (List.append_nil _).symm⟩
  have down := Transition.variant_accepted_le FeedAct.advances
    (@distance_step env principalId start _) begins later
  obtain ⟨follows, added, grown⟩ := Transition.final_invariant
    (fun s act s' inv taken => (@distance_step env _ _ _ s act s' inv taken).1) begins later
  generalize Transition.final (Feeding.step env) s later = t at *
  have start_ : s.distance (principalFeed s.store principalId) ≤
      2 * (s.unread principalId).length := by
    unfold Feeding.distance Feeding.unread
    dsimp only
    split <;> omega
  have done : t.distance (principalFeed s.store principalId) = 0 := by omega
  have finished : (∃ error, t.reader.phase = .raised error) ∨
      after FeedEntry.feedEventId (principalFeed s.store principalId) t.reader.cursor = [] := by
    unfold Feeding.distance at done
    dsimp only at done
    split at done
    · exact Or.inl ⟨_, ‹_›⟩
    · exact Or.inr (List.length_eq_zero_iff.mp (by omega))
    · exact Or.inr (List.length_eq_zero_iff.mp (by omega))
  rcases finished with ⟨error, raised⟩ | reached
  · exact Or.inl (follows.refused error raised)
  · right
    intro entry member wanted
    rw [follows.all, grown, Cursor.mem_taken]
    refine ⟨List.mem_append_left _ member, wanted, ?_⟩
    rw [after, List.filter_eq_nil_iff] at reached
    have passed := reached entry member
    rw [decide_eq_true_eq, not_lt] at passed
    exact passed

theorem FollowsFeed.exactlyOnce (h : FollowsFeed principalId start s) :
    ExactlyOnce env principalId start s := by
  have entries : ∀ e ∈ s.reader.yielded, ∃ row ∈ s.store.feed.rows,
      row.principalId = strip principalId ∧ row.entry = e.entry := by
    intro e member
    have listed : e.entry ∈ s.reader.yielded.map PrincipalTaskEvent.entry :=
      List.mem_map_of_mem member
    rw [h.all] at listed
    obtain ⟨row, selected, same⟩ := List.mem_map.mp (Cursor.mem_taken.mp listed).1
    obtain ⟨stored, own⟩ := List.mem_filter.mp selected
    exact ⟨row, stored, by simpa using own, same⟩
  refine ⟨h.all, ?_, ?_, ?_, h.moves, h.delivered⟩
  · have sorted : (s.reader.yielded.map PrincipalTaskEvent.entry).Pairwise
        (fun a b => a.feedEventId < b.feedEventId) := by
      rw [h.all]
      exact (principalFeed_sorted h.sound.feed).filter _
    rw [List.pairwise_map] at sorted ⊢
    exact sorted.imp Int.ofNat_lt.mp
  · intro e member
    obtain ⟨row, stored, own, same⟩ := entries e member
    have principal : row.principalId = e.principalId := congrArg FeedEntry.principalId same
    have names : row.taskId = e.event.taskId := congrArg FeedEntry.taskId same
    obtain ⟨-, id, listed, task, owner⟩ := h.fed row stored
    obtain ⟨found, present, rfl⟩ := List.mem_map.mp listed
    exact ⟨principal.symm.trans own, found, present, task.trans names, owner.trans own⟩
  · intro waits rows member row listed own unseen
    have moved : s.feedVersion ≠ s.reader.feedVersion := by
      intro same
      have early : rows ∈ s.published.take s.reader.feedVersion := by
        rw [← same, Feeding.feedVersion, List.take_length]
        exact member
      exact absurd (h.waited waits rows early row listed own) (not_le.mpr unseen)
    rw [Feeding.step, if_pos ⟨waits, moved⟩]
    rfl

end Following

section Runs

/-- An empty repository, a hub that has published nothing, and a subscriber about to start. -/
def Feeding.initial (sessions : Table SessionRow.sessionHandle)
    (definitions : Table DefinitionRow.taskId) (executions : Table ExecutionRow.executionId)
    (principalId : String) (interval : Time) (start : Int) : Feeding where
  store := .initial sessions definitions executions
  published := []
  reader := { principalId, reconciliationInterval := interval, cursor := start }

end Runs

end Knoa.Tasks
