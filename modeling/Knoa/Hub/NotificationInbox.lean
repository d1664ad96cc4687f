import Mathlib.Data.List.Sort
import Mathlib.Data.Rat.Defs
import Mathlib.Algebra.Order.Ring.Rat
import Knoa.Library.Table
import Knoa.Library.Transition

/-!
# The notification inbox of the Hub

`notification_inbox` and a client that follows it by `inbox_cursor`, the row id. A new row
has the largest row id plus one.
-/
namespace Knoa.Hub

open Relational

/-- A notification intent of a Node, and where its Hub puts it. -/
structure Intent where
  accountId : String
  nodeId : String
  category : String := ""
  workKind : String := ""
  workId : String := ""
  executionId : String := ""
  semanticCode : String := ""
  parameters : String := ""
  deepLink : String := ""
  priority : String := "normal"
  expiresAt : Rat
  sourceSequence : Nat

structure InboxRow where
  inboxCursor : Nat
  intentId : String
  intent : Intent
  receivedAt : Rat
  acknowledgedAt : Option Rat

abbrev Inbox := Table InboxRow.intentId

def nextRowid (inbox : Inbox) : Nat := (inbox.rows.map InboxRow.inboxCursor).foldl max 0 + 1

/-- A row with one of the two unique keys is there already. -/
def stored (inbox : Inbox) (intentId : String) (intent : Intent) : Bool :=
  inbox.rows.any fun row => row.intentId == intentId ||
    row.intent.nodeId == intent.nodeId && row.intent.sourceSequence == intent.sourceSequence

/-- `INSERT OR IGNORE` -/
def putNotificationIntent (inbox : Inbox) (intentId : String) (intent : Intent) (now : Rat) :
    Inbox :=
  let row : InboxRow :=
    { inboxCursor := nextRowid inbox, intentId, intent, receivedAt := now, acknowledgedAt := none }
  if stored inbox intentId intent then inbox else (inbox.insert row).getD inbox

def cursorLe (a b : InboxRow) : Prop := a.inboxCursor ≤ b.inboxCursor

instance (a b : InboxRow) : Decidable (cursorLe a b) :=
  inferInstanceAs (Decidable (a.inboxCursor ≤ b.inboxCursor))

def due (inbox : Inbox) (accountId : String) (afterCursor : Nat) (now : Rat) : List InboxRow :=
  inbox.rows.filter fun row =>
    row.intent.accountId == accountId && decide (afterCursor < row.inboxCursor) &&
      decide (now < row.intent.expiresAt)

def listNotifications (inbox : Inbox) (accountId : String) (afterCursor limit : Nat) (now : Rat) :
    Option (List InboxRow) :=
  if 1 ≤ limit ∧ limit ≤ 200 then
    some (((due inbox accountId afterCursor now).insertionSort cursorLe).take limit)
  else none

def InboxRow.acknowledge (now : Rat) (row : InboxRow) : InboxRow :=
  { row with acknowledgedAt := row.acknowledgedAt.or (some now) }

theorem acknowledge_intentId (now : Rat) (row : InboxRow) :
    (row.acknowledge now).intentId = row.intentId := rfl

def acknowledgeNotification (inbox : Inbox) (accountId intentId : String) (now : Rat) : Inbox :=
  inbox.update (fun row => row.intent.accountId == accountId && row.intentId == intentId)
    (InboxRow.acknowledge now) (acknowledge_intentId now)

def pruneExpiredNotifications (inbox : Inbox) (now : Rat) : Inbox :=
  inbox.delete fun row => decide (row.intent.expiresAt ≤ now)

structure FeedClient where
  accountId : String
  cursor : Nat := 0
  received : List String := []

def FeedClient.receive (client : FeedClient) (page : List InboxRow) : FeedClient :=
  { client with
    cursor := (page.map InboxRow.inboxCursor).foldl max client.cursor
    received := client.received ++ page.map InboxRow.intentId }

structure FeedState where
  inbox : Inbox := Table.empty
  now : Rat := 0
  client : FeedClient

inductive FeedLabel
  /-- Time passes. -/
  | clock (now : Rat)
  /-- A Node sends an intent, for the first time or again. -/
  | put (intentId : String)
  | prune
  | acknowledge (accountId intentId : String)
  | list (limit : Nat) (lost : Bool)

section System

-- what the Nodes hold under the ids of their intents
variable (intents : String → Intent)

def feedStep (s : FeedState) : FeedLabel → Option FeedState
  | .clock now => if s.now ≤ now then some { s with now } else none
  | .put intentId =>
    some { s with inbox := putNotificationIntent s.inbox intentId (intents intentId) s.now }
  | .prune => some { s with inbox := pruneExpiredNotifications s.inbox s.now }
  | .acknowledge accountId intentId =>
    some { s with inbox := acknowledgeNotification s.inbox accountId intentId s.now }
  | .list limit lost => do
    let page ← listNotifications s.inbox s.client.accountId s.client.cursor limit s.now
    return if lost then s else { s with client := s.client.receive page }

end System

def FeedState.Due (s : FeedState) (row : InboxRow) : Prop :=
  row ∈ s.inbox.rows ∧ row.intent.accountId = s.client.accountId ∧ s.now < row.intent.expiresAt

/-- A page that the client lists now gives it every intent it should have, up to where a full page
ends; and it has received none twice. -/
structure FeedComplete (s : FeedState) : Prop where
  listed : ∀ limit page, listNotifications s.inbox s.client.accountId s.client.cursor limit s.now =
      some page → ∀ row, s.Due row → row.intentId ∈ s.client.received ∨ row ∈ page ∨
        page.length = limit ∧ ∀ other ∈ page, other.inboxCursor < row.inboxCursor
  once : s.client.received.Nodup

/-- The condition on a step: an intent of the client that has not expired is stored while the table
has a row with a cursor as large as the client's. -/
def FeedClean (intents : String → Intent) (s : FeedState) : FeedLabel → Prop
  | .put intentId =>
    stored s.inbox intentId (intents intentId) = false →
      (intents intentId).accountId = s.client.accountId →
      s.now < (intents intentId).expiresAt → s.client.cursor < nextRowid s.inbox
  | _ => True

theorem le_foldl_max (l : List Nat) (start : Nat) :
    start ≤ l.foldl max start ∧ ∀ n ∈ l, n ≤ l.foldl max start := by
  induction l generalizing start with
  | nil => exact ⟨le_refl start, nofun⟩
  | cons first rest ih =>
    obtain ⟨base, each⟩ := ih (max start first)
    refine ⟨(le_max_left start first).trans base, fun n member => ?_⟩
    rcases List.mem_cons.mp member with rfl | later
    · exact (le_max_right start n).trans base
    · exact each n later

theorem foldl_max_lt {l : List Nat} {start bound : Nat} (base : start < bound)
    (each : ∀ n ∈ l, n < bound) : l.foldl max start < bound := by
  induction l generalizing start with
  | nil => exact base
  | cons first rest ih =>
    have next := max_lt base (each first List.mem_cons_self)
    exact ih next fun n member => each n (List.mem_cons_of_mem first member)

theorem lt_nextRowid {inbox : Inbox} {row : InboxRow} (member : row ∈ inbox.rows) :
    row.inboxCursor < nextRowid inbox :=
  Nat.lt_succ_of_le ((le_foldl_max _ 0).2 _ (List.mem_map_of_mem member))

def Ascending (inbox : Inbox) : Prop := inbox.rows.Pairwise fun a b => a.inboxCursor < b.inboxCursor

section Pages

variable {inbox : Inbox} {accountId : String} {afterCursor limit : Nat} {now : Rat}
  {page : List InboxRow} {row : InboxRow}

theorem mem_due : row ∈ due inbox accountId afterCursor now ↔ row ∈ inbox.rows ∧
    row.intent.accountId = accountId ∧ afterCursor < row.inboxCursor ∧
      now < row.intent.expiresAt := by
  unfold due
  simp only [List.mem_filter, Bool.and_eq_true, beq_iff_eq, decide_eq_true_eq, and_assoc]

theorem list_eq (ascending : Ascending inbox)
    (listed : listNotifications inbox accountId afterCursor limit now = some page) :
    0 < limit ∧ page = (due inbox accountId afterCursor now).take limit := by
  unfold listNotifications at listed
  split at listed
  next bounds =>
    have sorted : (due inbox accountId afterCursor now).Pairwise cursorLe :=
      (ascending.sublist List.filter_sublist).imp fun less => le_of_lt less
    refine ⟨bounds.1, ?_⟩
    rw [← Option.some.inj listed]
    rw [sorted.insertionSort_eq]
  next => cases listed

theorem mem_page (ascending : Ascending inbox)
    (listed : listNotifications inbox accountId afterCursor limit now = some page)
    (member : row ∈ page) : row ∈ inbox.rows ∧ row.intent.accountId = accountId ∧
      afterCursor < row.inboxCursor ∧ now < row.intent.expiresAt := by
  obtain ⟨-, rfl⟩ := list_eq ascending listed
  exact mem_due.mp (List.mem_of_mem_take member)

theorem page_complete (ascending : Ascending inbox)
    (listed : listNotifications inbox accountId afterCursor limit now = some page)
    (isDue : row ∈ due inbox accountId afterCursor now) :
    row ∈ page ∨ page.length = limit ∧ ∀ other ∈ page, other.inboxCursor < row.inboxCursor := by
  obtain ⟨-, rfl⟩ := list_eq ascending listed
  have split := List.take_append_drop limit (due inbox accountId afterCursor now)
  rw [← split] at isDue
  rcases List.mem_append.mp isDue with inPage | behind
  · exact .inl inPage
  · right
    have order : (due inbox accountId afterCursor now).Pairwise
        fun a b => a.inboxCursor < b.inboxCursor := ascending.sublist List.filter_sublist
    rw [← split, List.pairwise_append] at order
    refine ⟨?_, fun other member => order.2.2 other member row behind⟩
    rw [List.length_take]
    have more : limit < (due inbox accountId afterCursor now).length := by
      by_contra short
      rw [List.drop_eq_nil_of_le (Nat.le_of_not_lt short)] at behind
      cases behind
    omega

end Pages

section Operations

variable {inbox : Inbox} {intentId : String} {intent : Intent} {now : Rat} {row : InboxRow}

theorem put_stored (there : stored inbox intentId intent = true) :
    putNotificationIntent inbox intentId intent now = inbox := by
  exact if_pos there

theorem put_new (new : stored inbox intentId intent = false) :
    (putNotificationIntent inbox intentId intent now).rows = inbox.rows ++
      [{ inboxCursor := nextRowid inbox, intentId, intent,
         receivedAt := now, acknowledgedAt := none }] := by
  have fresh : intentId ∉ inbox.rows.map InboxRow.intentId := by
    intro member
    obtain ⟨row, stands, same⟩ := List.mem_map.mp member
    have none := List.any_eq_false.mp new row stands
    simp [same] at none
  unfold putNotificationIntent
  simp only [new, Bool.false_eq_true, if_false, Table.insert, fresh, not_false_eq_true, dif_pos,
    Option.getD_some]

theorem put_ascending (ascending : Ascending inbox) :
    Ascending (putNotificationIntent inbox intentId intent now) := by
  cases there : stored inbox intentId intent with
  | true => rwa [put_stored there]
  | false =>
    unfold Ascending
    rw [put_new there, List.pairwise_append]
    refine ⟨ascending, List.pairwise_singleton _ _, fun a member b new => ?_⟩
    rw [List.mem_singleton.mp new]
    exact lt_nextRowid member

theorem acknowledge_ascending {accountId : String} (ascending : Ascending inbox) :
    Ascending (acknowledgeNotification inbox accountId intentId now) := by
  unfold Ascending acknowledgeNotification
  rw [Table.update_rows, List.pairwise_map]
  refine ascending.imp fun {a b} less => ?_
  split <;> split <;> exact less

theorem mem_acknowledge {accountId : String}
    (member : row ∈ (acknowledgeNotification inbox accountId intentId now).rows) :
    ∃ old ∈ inbox.rows, old.inboxCursor = row.inboxCursor ∧ old.intentId = row.intentId ∧
      old.intent = row.intent := by
  unfold acknowledgeNotification at member
  rw [Table.update_rows] at member
  obtain ⟨old, stands, rfl⟩ := List.mem_map.mp member
  refine ⟨old, stands, ?_⟩
  split <;> exact ⟨rfl, rfl, rfl⟩

theorem acknowledge_mem {accountId : String} (member : row ∈ inbox.rows) :
    ∃ new ∈ (acknowledgeNotification inbox accountId intentId now).rows,
      new.inboxCursor = row.inboxCursor ∧ new.intentId = row.intentId := by
  unfold acknowledgeNotification
  rw [Table.update_rows]
  refine ⟨_, List.mem_map_of_mem member, ?_⟩
  split <;> exact ⟨rfl, rfl⟩

theorem mem_prune : row ∈ (pruneExpiredNotifications inbox now).rows ↔
    row ∈ inbox.rows ∧ now < row.intent.expiresAt := by
  unfold pruneExpiredNotifications Table.delete
  rw [List.mem_filter, Bool.not_eq_true', decide_eq_false_iff_not, not_le]

end Operations

structure FeedInv (intents : String → Intent) (s : FeedState) : Prop where
  ascending : Ascending s.inbox
  content : ∀ row ∈ s.inbox.rows, row.intent = intents row.intentId
  behind : ∀ id ∈ s.client.received, (intents id).expiresAt ≤ s.now ∨
    ∃ row ∈ s.inbox.rows, row.intentId = id ∧ row.inboxCursor ≤ s.client.cursor

structure FeedPassed (s : FeedState) : Prop where
  passed : ∀ row, s.Due row → row.inboxCursor ≤ s.client.cursor → row.intentId ∈ s.client.received
  once : s.client.received.Nodup

theorem feedComplete_iff {s : FeedState} (ascending : Ascending s.inbox) :
    FeedComplete s ↔ FeedPassed s := by
  constructor
  · rintro ⟨listed, once⟩
    refine ⟨fun row isDue passed => ?_, once⟩
    obtain ⟨page, lists⟩ : ∃ page,
        listNotifications s.inbox s.client.accountId s.client.cursor 200 s.now = some page :=
      ⟨_, if_pos ⟨by decide, le_refl 200⟩⟩
    have beyond : ∀ other ∈ page, s.client.cursor < other.inboxCursor := fun other member =>
      (mem_page ascending lists member).2.2.1
    rcases listed 200 page lists row isDue with received | inPage | ⟨full, before⟩
    · exact received
    · exact absurd (beyond row inPage) (not_lt.mpr passed)
    · obtain ⟨other, member⟩ := List.exists_mem_of_length_pos (full ▸ (by decide : 0 < 200))
      exact absurd ((beyond other member).trans (before other member)) (not_lt.mpr passed)
  · rintro ⟨passed, once⟩
    refine ⟨fun limit page listed row isDue => ?_, once⟩
    by_cases behind : row.inboxCursor ≤ s.client.cursor
    · exact .inl (passed row isDue behind)
    · have isListed : row ∈ due s.inbox s.client.accountId s.client.cursor s.now :=
        mem_due.mpr ⟨isDue.1, isDue.2.1, not_le.mp behind, isDue.2.2⟩
      exact .inr (page_complete ascending listed isListed)

section Steps

variable {intents : String → Intent} {s s' : FeedState} {l : FeedLabel}

theorem FeedInv.grow {inbox : Inbox} (inv : FeedInv intents s) (ascending : Ascending inbox)
    (content : ∀ row ∈ inbox.rows, row.intent = intents row.intentId)
    (kept : ∀ row ∈ s.inbox.rows, s.now < row.intent.expiresAt → ∃ new ∈ inbox.rows,
      new.inboxCursor = row.inboxCursor ∧ new.intentId = row.intentId) :
    FeedInv intents { s with inbox } := by
  refine ⟨ascending, content, fun id member => ?_⟩
  rcases inv.behind id member with expired | ⟨row, stands, rfl, passed⟩
  · exact .inl expired
  · by_cases fresh : s.now < row.intent.expiresAt
    · obtain ⟨new, there, cursor, same⟩ := kept row stands fresh
      exact .inr ⟨new, there, same, cursor ▸ passed⟩
    · rw [inv.content row stands] at fresh
      exact .inl (not_lt.mp fresh)

theorem FeedInv.unread {limit : Nat} {page : List InboxRow} (inv : FeedInv intents s)
    (listed : listNotifications s.inbox s.client.accountId s.client.cursor limit s.now = some page)
    {row : InboxRow} (member : row ∈ page) : row.intentId ∉ s.client.received := by
  intro received
  obtain ⟨stands, -, beyond, fresh⟩ := mem_page inv.ascending listed member
  rcases inv.behind _ received with expired | ⟨other, there, same, passed⟩
  · rw [inv.content row stands] at fresh
    exact absurd fresh (not_lt.mpr expired)
  · rw [s.inbox.mem_unique there stands same] at passed
    exact absurd beyond (not_lt.mpr passed)

theorem FeedInv.list {limit : Nat} {page : List InboxRow} (inv : FeedInv intents s)
    (listed : listNotifications s.inbox s.client.accountId s.client.cursor limit s.now =
      some page) : FeedInv intents { s with client := s.client.receive page } := by
  obtain ⟨base, each⟩ := le_foldl_max (page.map InboxRow.inboxCursor) s.client.cursor
  refine ⟨inv.ascending, inv.content, fun id member => ?_⟩
  rcases List.mem_append.mp member with old | new
  · rcases inv.behind id old with expired | ⟨row, stands, same, passed⟩
    · exact .inl expired
    · exact .inr ⟨row, stands, same, passed.trans base⟩
  · obtain ⟨row, inPage, rfl⟩ := List.mem_map.mp new
    have stands := (mem_page inv.ascending listed inPage).1
    exact .inr ⟨row, stands, rfl, each _ (List.mem_map_of_mem inPage)⟩

theorem feedInv_kept (s : FeedState) (l : FeedLabel) (s' : FeedState) (inv : FeedInv intents s)
    (taken : feedStep intents s l = some s') : FeedInv intents s' := by
  cases l with
  | clock now =>
    simp only [feedStep] at taken
    split at taken
    next later =>
      cases taken
      refine ⟨inv.ascending, inv.content, fun id member => ?_⟩
      exact (inv.behind id member).imp_left fun expired => expired.trans later
    next => cases taken
  | put intentId =>
    cases taken
    refine inv.grow (put_ascending inv.ascending) ?_ ?_
    all_goals
      cases there : stored s.inbox intentId (intents intentId) with
      | true =>
        rw [put_stored there]
        first
          | exact inv.content
          | exact fun row stands _ => ⟨row, stands, rfl, rfl⟩
      | false => ?_
    · rw [put_new there]
      intro row member
      rcases List.mem_concat.mp member with old | new
      · exact inv.content row old
      · rw [new]
    · rw [put_new there]
      exact fun row stands _ => ⟨row, List.mem_append_left _ stands, rfl, rfl⟩
  | prune =>
    cases taken
    refine inv.grow (inv.ascending.sublist List.filter_sublist) ?_ ?_
    · exact fun row member => inv.content row (mem_prune.mp member).1
    · exact fun row stands fresh => ⟨row, mem_prune.mpr ⟨stands, fresh⟩, rfl, rfl⟩
  | acknowledge accountId intentId =>
    cases taken
    refine inv.grow (acknowledge_ascending inv.ascending) ?_ ?_
    · intro row member
      obtain ⟨old, stands, -, id, content⟩ := mem_acknowledge member
      rw [← content, inv.content old stands, id]
    · exact fun row stands _ => acknowledge_mem stands
  | list limit lost =>
    simp only [feedStep, Option.bind_eq_bind, Option.bind_eq_some_iff] at taken
    obtain ⟨page, listed, result⟩ := taken
    cases result
    split
    · exact inv
    · exact inv.list listed

theorem FeedPassed.grow {inbox : Inbox} (passed : FeedPassed s)
    (old : ∀ row ∈ inbox.rows, ∃ before ∈ s.inbox.rows, before.inboxCursor = row.inboxCursor ∧
      before.intentId = row.intentId ∧ before.intent = row.intent) :
    FeedPassed { s with inbox } := by
  refine ⟨fun row isDue behind => ?_, passed.once⟩
  obtain ⟨stands, own, fresh⟩ := isDue
  obtain ⟨before, there, cursor, id, content⟩ := old row stands
  have received := passed.passed before ⟨there, content ▸ own, content ▸ fresh⟩ (cursor ▸ behind)
  exact id ▸ received

theorem FeedPassed.list {limit : Nat} {page : List InboxRow} (inv : FeedInv intents s)
    (passed : FeedPassed s)
    (listed : listNotifications s.inbox s.client.accountId s.client.cursor limit s.now =
      some page) : FeedPassed { s with client := s.client.receive page } := by
  refine ⟨fun row isDue behind => ?_, ?_⟩
  · by_cases already : row.inboxCursor ≤ s.client.cursor
    · exact List.mem_append_left _ (passed.passed row isDue already)
    · have isListed : row ∈ due s.inbox s.client.accountId s.client.cursor s.now :=
        mem_due.mpr ⟨isDue.1, isDue.2.1, not_le.mp already, isDue.2.2⟩
      rcases page_complete inv.ascending listed isListed with inPage | ⟨-, before⟩
      · exact List.mem_append_right _ (List.mem_map_of_mem inPage)
      · have short : (page.map InboxRow.inboxCursor).foldl max s.client.cursor < row.inboxCursor :=
          foldl_max_lt (not_le.mp already) fun n member => by
            obtain ⟨other, inPage, rfl⟩ := List.mem_map.mp member
            exact before other inPage
        exact absurd behind (not_le.mpr short)
  · refine List.nodup_append.mpr ⟨passed.once, ?_, fun a old b new same => ?_⟩
    · obtain ⟨-, rfl⟩ := list_eq inv.ascending listed
      have listedRows : (due s.inbox s.client.accountId s.client.cursor s.now).Sublist
          s.inbox.rows := List.filter_sublist
      have rows := (List.take_sublist limit _).trans listedRows
      exact (rows.map InboxRow.intentId).nodup s.inbox.keyed
    · obtain ⟨row, inPage, rfl⟩ := List.mem_map.mp new
      exact inv.unread listed inPage (same ▸ old)

theorem feedPassed_put {intentId : String} (inv : FeedInv intents s) (passed : FeedPassed s)
    (new : stored s.inbox intentId (intents intentId) = false) :
    FeedPassed { s with inbox := putNotificationIntent s.inbox intentId (intents intentId) s.now } ↔
      FeedClean intents s (.put intentId) := by
  have rows : (putNotificationIntent s.inbox intentId (intents intentId) s.now).rows = _ :=
    put_new new
  constructor
  · intro after _ own fresh
    by_contra behind
    have isDue : FeedState.Due
        { s with inbox := putNotificationIntent s.inbox intentId (intents intentId) s.now }
        { inboxCursor := nextRowid s.inbox, intentId, intent := intents intentId,
          receivedAt := s.now, acknowledgedAt := none } :=
      ⟨rows ▸ List.mem_concat_self, own, fresh⟩
    have received := after.passed _ isDue (not_lt.mp behind)
    rcases inv.behind intentId received with expired | ⟨row, stands, same, -⟩
    · exact absurd fresh (not_lt.mpr expired)
    · have none := List.any_eq_false.mp new row stands
      simp [same] at none
  · intro clean
    refine ⟨fun row isDue behind => ?_, passed.once⟩
    obtain ⟨stands, own, fresh⟩ := isDue
    rw [rows] at stands
    rcases List.mem_concat.mp stands with old | added
    · exact passed.passed row ⟨old, own, fresh⟩ behind
    · rw [added] at own fresh behind
      exact absurd (clean new own fresh) (not_lt.mpr behind)

theorem feedPassed_step (s : FeedState) (l : FeedLabel) (s' : FeedState) (inv : FeedInv intents s)
    (passed : FeedPassed s) (taken : feedStep intents s l = some s') :
    FeedPassed s' ↔ FeedClean intents s l := by
  cases l with
  | clock now =>
    simp only [feedStep] at taken
    split at taken
    next later =>
      cases taken
      refine ⟨fun _ => trivial, fun _ => ⟨fun row isDue => ?_, passed.once⟩⟩
      exact passed.passed row ⟨isDue.1, isDue.2.1, later.trans_lt isDue.2.2⟩
    next => cases taken
  | put intentId =>
    cases taken
    cases there : stored s.inbox intentId (intents intentId) with
    | true =>
      rw [put_stored there]
      refine ⟨fun _ new => ?_, fun _ => passed⟩
      rw [there] at new
      cases new
    | false => exact feedPassed_put inv passed there
  | prune =>
    cases taken
    refine ⟨fun _ => trivial, fun _ => passed.grow fun row member => ?_⟩
    exact ⟨row, (mem_prune.mp member).1, rfl, rfl, rfl⟩
  | acknowledge accountId intentId =>
    cases taken
    exact ⟨fun _ => trivial, fun _ => passed.grow fun row member => mem_acknowledge member⟩
  | list limit lost =>
    simp only [feedStep, Option.bind_eq_bind, Option.bind_eq_some_iff] at taken
    obtain ⟨page, listed, result⟩ := taken
    cases result
    refine ⟨fun _ => trivial, fun _ => ?_⟩
    split
    · exact passed
    · exact FeedPassed.list inv passed listed

end Steps

/-- A client of an inbox misses nothing and gets nothing twice exactly when no intent that it
should have is stored behind its cursor. -/
theorem feed_complete_iff (intents : String → Intent) (accountId : String) (now : Rat)
    (labels : List FeedLabel) :
    let start : FeedState := { now, client := { accountId := accountId } }
    (∀ t ∈ Transition.trace (feedStep intents) start labels, FeedComplete t) ↔
      ∀ taken ∈ Transition.accepted (feedStep intents) start labels,
        FeedClean intents taken.1 taken.2 := by
  intro start
  have inv : FeedInv intents start := by
    refine ⟨List.Pairwise.nil, fun _ member => ?_, fun _ member => ?_⟩
    all_goals cases member
  have passed : FeedPassed start := ⟨fun _ isDue => (by cases isDue.1), List.nodup_nil⟩
  have same : (∀ t ∈ Transition.trace (feedStep intents) start labels, FeedComplete t) ↔
      ∀ t ∈ Transition.trace (feedStep intents) start labels, FeedPassed t :=
    forall₂_congr fun t member =>
      feedComplete_iff (Transition.trace_invariant feedInv_kept inv labels t member).ascending
  rw [same]
  exact @Transition.trace_safe_iff _ _ (feedStep intents) (FeedInv intents) FeedPassed
    (fun _ => True) (FeedClean intents) feedInv_kept (fun s l s' _ => feedPassed_step s l s') _ inv
    passed labels fun _ _ => trivial

section Sample

def sampleIntents (id : String) : Intent where
  accountId := "owner"
  nodeId := "node"
  expiresAt := if id = "b" then 1 else 7
  sourceSequence := if id = "a" then 1 else if id = "b" then 2 else 3

/-- The row with the largest cursor expires and is pruned, and the next intent takes its cursor. -/
theorem reused_cursor_missed :
    let labels : List FeedLabel :=
      [.put "a", .put "b", .list 100 false, .clock 2, .prune, .put "c", .list 100 false]
    let last := Transition.final (feedStep sampleIntents) { client := { accountId := "owner" } }
      labels
    last.client.received = ["a", "b"] ∧ last.client.cursor = 2 ∧
      last.inbox.rows.map (fun row => (row.intentId, row.inboxCursor)) = [("a", 1), ("c", 2)] ∧
      ¬FeedComplete last := by
  intro labels last
  have run : (last.client.received = ["a", "b"] ∧ last.client.cursor = 2 ∧
      last.inbox.rows.map (fun row => (row.intentId, row.inboxCursor)) = [("a", 1), ("c", 2)]) ∧
      (last.inbox.rows.all fun row => decide (row.intent.accountId = last.client.accountId) &&
        decide (last.now < row.intent.expiresAt)) = true ∧
      (listNotifications last.inbox last.client.accountId last.client.cursor 100 last.now).map
        List.length = some 0 := by decide +kernel
  obtain ⟨⟨received, cursor, rows⟩, fresh, listed⟩ := run
  refine ⟨received, cursor, rows, fun complete => ?_⟩
  have third : ("c", 2) ∈ last.inbox.rows.map fun row => (row.intentId, row.inboxCursor) := by
    rw [rows]
    exact List.mem_cons_of_mem _ List.mem_cons_self
  obtain ⟨row, stands, keys⟩ := List.mem_map.mp third
  obtain ⟨page, lists, empty⟩ := Option.map_eq_some_iff.mp listed
  have due := List.all_eq_true.mp fresh row stands
  rw [Bool.and_eq_true, decide_eq_true_eq, decide_eq_true_eq] at due
  rcases complete.listed 100 page lists row ⟨stands, due⟩ with before | inPage | ⟨full, -⟩
  · rw [(Prod.mk.inj keys).1, received] at before
    revert before
    decide
  · rw [List.length_eq_zero_iff.mp empty] at inPage
    cases inPage
  · rw [empty] at full
    cases full

end Sample

end Knoa.Hub
