import Knoa.Runtime.ToolInventory
import Mathlib.Algebra.Order.BigOperators.Group.List
import Mathlib.Data.List.Dedup
import Mathlib.Data.List.Induction
import Mathlib.Data.List.Infix
import Mathlib.Data.List.Sublists

/-!
# What a session keeps seeing

Activations add up for as long as a session lives, and a turn goes through exactly where the tools
asked for so far fit beside the ones that are always on.
-/
namespace Knoa.Runtime.ToolInventory

structure Catalogue (settings : Settings) where
  listed : List Json
  snapshot : ToolInventorySnapshot
  discovered : snapshotOf settings listed = .ok snapshot

section
variable {settings : Settings}

theorem discover_unique {listed : List Json} {found tools : List Tool}
    (returned : discover settings listed found = .ok tools)
    (unique : (found.map Tool.name).Nodup) : (tools.map Tool.name).Nodup := by
  induction listed generalizing found with
  | nil =>
    rw [discover] at returned
    rw [← Except.ok.inj returned]
    exact unique
  | cons raw listed ih =>
    rw [discover] at returned
    cases normalized : normalize settings raw with
    | error refusal =>
      rw [normalized] at returned
      cases returned
    | ok tool =>
      rw [normalized] at returned
      change (if tool.name ∈ found.map Tool.name then _ else _) = _ at returned
      split at returned
      next => exact ih returned unique
      next fresh =>
        refine ih returned ?_
        rw [List.map_append, List.map_cons, List.map_nil, ← List.concat_eq_append]
        exact List.Nodup.concat fresh unique

variable (catalogue : Catalogue settings)

namespace Catalogue

def tools : List Tool := catalogue.snapshot.tools

theorem unique : (catalogue.tools.map Tool.name).Nodup := by
  have discovered := catalogue.discovered
  rw [snapshotOf] at discovered
  cases found : discover settings catalogue.listed [] with
  | error refusal =>
    rw [found] at discovered
    cases discovered
  | ok tools =>
    rw [found] at discovered
    have same : catalogue.tools = tools :=
      congrArg ToolInventorySnapshot.tools (Except.ok.inj discovered).symm
    rw [same]
    exact discover_unique found List.nodup_nil

theorem byName_iff {name : String} {tool : Tool} :
    catalogue.snapshot.byName name = some tool ↔ tool ∈ catalogue.tools ∧ tool.name = name := by
  constructor
  · intro found
    refine ⟨?_, by simpa using List.find?_some found⟩
    exact List.mem_reverse.mp (List.mem_of_find?_eq_some found)
  · rintro ⟨member, rfl⟩
    cases found : catalogue.snapshot.byName tool.name with
    | none =>
      have other := List.find?_eq_none.mp found tool (List.mem_reverse.mpr member)
      simp at other
    | some other =>
      have there : other ∈ catalogue.tools := List.mem_reverse.mp (List.mem_of_find?_eq_some found)
      have named : other.name = tool.name := by simpa using List.find?_some found
      rw [List.inj_on_of_nodup_map catalogue.unique there member named]

def alwaysOn : List ToolSignature := catalogue.snapshot.stable settings

def among (names : List String) : List Tool :=
  (catalogue.snapshot.deferred settings).filter fun tool => decide (tool.name ∈ names)

theorem mem_among {names : List String} {tool : Tool} : tool ∈ catalogue.among names ↔
      tool ∈ catalogue.tools ∧ settings.deferredPredicate tool.name = true ∧ tool.name ∈ names := by
  simp only [among, ToolInventorySnapshot.deferred, tools, List.mem_filter, decide_eq_true_eq]
  exact and_assoc

/-- The tools that are always on and the ones under `names` fit the budget. -/
def Fits (names : List String) : Prop :=
  totalSize (catalogue.alwaysOn ++ (catalogue.among names).map modelSignature) ≤
    settings.schemaCharBudget

instance (names : List String) : Decidable (catalogue.Fits names) :=
  inferInstanceAs (Decidable (_ ≤ _))

/-- The whole catalogue fits. -/
def AllFit : Prop :=
  totalSize (catalogue.alwaysOn ++
    (catalogue.snapshot.deferred settings).map modelSignature) ≤ settings.schemaCharBudget

theorem nodup_tools : catalogue.tools.Nodup := List.Nodup.of_map _ catalogue.unique

theorem isSelectable_iff {name : String} : isSelectable settings catalogue.snapshot name = true ↔
      ∃ tool ∈ catalogue.tools, tool.name = name ∧ settings.deferredPredicate name = true := by
  simp only [isSelectable, Bool.and_eq_true, decide_eq_true_eq, List.mem_map, tools]
  constructor
  · rintro ⟨⟨tool, member, named⟩, deferred⟩
    exact ⟨tool, member, named, deferred⟩
  · rintro ⟨tool, member, named, deferred⟩
    exact ⟨⟨tool, member, named⟩, deferred⟩

end Catalogue

theorem totalSize_append (a b : List ToolSignature) :
    totalSize (a ++ b) = totalSize a + totalSize b := by
  simp [totalSize]

theorem totalSize_perm {a b : List Tool} (same : a.Perm b) :
    totalSize (a.map modelSignature) = totalSize (b.map modelSignature) :=
  ((same.map modelSignature).map ToolSignature.size).sum_nat

theorem totalSize_sublist {a b : List Tool} (part : a.Sublist b) :
    totalSize (a.map modelSignature) ≤ totalSize (b.map modelSignature) :=
  ((part.map modelSignature).map ToolSignature.size).sum_le_sum (by simp)

namespace Catalogue

theorem fits_of_allFit (all : catalogue.AllFit) (names : List String) : catalogue.Fits names := by
  have less : totalSize ((catalogue.among names).map modelSignature) ≤
      totalSize ((catalogue.snapshot.deferred settings).map modelSignature) :=
    totalSize_sublist List.filter_sublist
  rw [Fits, totalSize_append]
  rw [AllFit, totalSize_append] at all
  omega

theorem fits_mono {names others : List String} (fewer : names ⊆ others)
    (fits : catalogue.Fits others) : catalogue.Fits names := by
  have part : (catalogue.among names).Sublist (catalogue.among others) := by
    refine List.monotone_filter_right _ fun tool named => ?_
    exact decide_eq_true (fewer (of_decide_eq_true named))
  have less := totalSize_sublist part
  rw [Fits, totalSize_append] at fits ⊢
  omega

theorem fits_congr {names others : List String}
    (same : ∀ name, isSelectable settings catalogue.snapshot name = true →
      (name ∈ names ↔ name ∈ others)) : catalogue.Fits names ↔ catalogue.Fits others := by
  have equal : catalogue.among names = catalogue.among others := by
    refine List.filter_congr fun tool member => ?_
    have listed := List.mem_filter.mp member
    have selectable : isSelectable settings catalogue.snapshot tool.name = true :=
      catalogue.isSelectable_iff.mpr ⟨tool, listed.1, rfl, listed.2⟩
    simp only [same tool.name selectable]
  rw [Fits, Fits, equal]

theorem perm_among {names : List String} (apart : names.Nodup)
    (known : ∀ name ∈ names, isSelectable settings catalogue.snapshot name = true) :
    (names.filterMap catalogue.snapshot.byName).Perm (catalogue.among names) := by
  have listed : (names.filterMap catalogue.snapshot.byName).map Tool.name = names := by
    rw [List.map_filterMap]
    refine (List.filterMap_congr fun name member => ?_).trans List.filterMap_some
    obtain ⟨tool, there, named, _⟩ := catalogue.isSelectable_iff.mp (known name member)
    rw [catalogue.byName_iff.mpr ⟨there, named⟩]
    simp [named]
  have first : (names.filterMap catalogue.snapshot.byName).Nodup := by
    refine List.Nodup.of_map Tool.name ?_
    rw [listed]
    exact apart
  have second : (catalogue.among names).Nodup := (catalogue.nodup_tools.filter _).filter _
  refine (List.perm_ext_iff_of_nodup first second).mpr fun tool => ?_
  rw [List.mem_filterMap, mem_among]
  constructor
  · rintro ⟨name, member, found⟩
    obtain ⟨there, named⟩ := catalogue.byName_iff.mp found
    obtain ⟨_, _, _, deferred⟩ := catalogue.isSelectable_iff.mp (known name member)
    rw [named]
    exact ⟨there, deferred, member⟩
  · rintro ⟨there, _, member⟩
    exact ⟨tool.name, member, catalogue.byName_iff.mpr ⟨there, rfl⟩⟩

end Catalogue

/-- What happens to the inventory of a process. -/
inductive Act
  | load (ref digest : String)
  | turn (ref query : String) (select : Selector)
  | activate (ref : String) (names : List String)
  | project (ref : String)
  | restore (ref : String) (names : List String)
  | invalidate (ref : String)

def step (inventory : ToolInventory) : Act → ToolInventory
  | .load ref digest => (inventory.load settings ref digest catalogue.listed).1
  | .turn ref query select =>
    (inventory.projectForTurn settings ref catalogue.snapshot query select).1
  | .activate ref names => (inventory.activate settings ref catalogue.snapshot names).1
  | .project ref => (inventory.project settings ref catalogue.snapshot).1
  | .restore ref names => inventory.restoreManifest settings ref catalogue.snapshot names
  | .invalidate ref => inventory.invalidateSession ref

def after (acts : List Act) : ToolInventory := acts.foldl (step catalogue) {}

def ask (names : String → List String) : Act → String → List String
  | .turn ref query select =>
    Function.update names ref
      (names ref ++ (recallTools settings catalogue.snapshot query select).names)
  | .activate ref others | .restore ref others => Function.update names ref (names ref ++ others)
  | .invalidate ref => Function.update names ref []
  | .load _ _ | .project _ => names

def asked (acts : List Act) : String → List String := acts.foldl (ask catalogue) fun _ => []

section
variable (inventory : ToolInventory)
include inventory

@[simp] theorem active_setActive (ref other : String)
    (names : List String) : (inventory.setActive ref names).active other =
      if other = ref then names else inventory.active other := by
  by_cases same : other = ref
  · subst same
    simp [setActive, active]
  · simp [setActive, active, same]

@[simp] theorem isStatic_setActive (ref other : String) (names : List String) :
    (inventory.setActive ref names).isStatic other = inventory.isStatic other := rfl

@[simp] theorem cache_setActive (ref : String)
    (names : List String) : (inventory.setActive ref names).cache = inventory.cache := rfl

@[simp] theorem active_setStatic (ref other : String) (flag : Bool) :
    (inventory.setStatic ref flag).active other = inventory.active other := rfl

@[simp] theorem cache_setStatic (ref : String) (flag : Bool) :
    (inventory.setStatic ref flag).cache = inventory.cache := rfl

@[simp] theorem isStatic_setStatic (ref other : String)
    (flag : Bool) : (inventory.setStatic ref flag).isStatic other =
      if other = ref then flag else inventory.isStatic other := by
  by_cases same : other = ref
  · subst same
    simp [setStatic, isStatic]
  · simp [setStatic, isStatic, same]

end

/-- The catalogue is shown as a whole. -/
def decided : Bool := decide (shouldUseStatic settings catalogue.snapshot = .ok true)

theorem allFit_of_decided (flag : decided catalogue = true) : catalogue.AllFit := by
  have returned := of_decide_eq_true flag
  unfold shouldUseStatic at returned
  split at returned
  · cases returned
  · simp only at returned
    split at returned
    · cases returned
    · have both := Except.ok.inj returned
      simp only [Bool.and_eq_true, decide_eq_true_eq] at both
      exact both.2

/-- What every run keeps. -/
structure Holds (inventory : ToolInventory) (names : String → List String) : Prop where
  apart : ∀ ref, (inventory.active ref).Nodup
  known : ∀ ref, ∀ name ∈ inventory.active ref, isSelectable settings catalogue.snapshot name = true
  fits : ∀ ref, inventory.isStatic ref = true → catalogue.AllFit
  gathered : ¬catalogue.AllFit → ∀ ref name,
    isSelectable settings catalogue.snapshot name = true →
      (name ∈ inventory.active ref ↔ name ∈ names ref)
  cached : ∀ ref digest snapshot, inventory.cache ref digest = some snapshot →
    snapshot = catalogue.snapshot ∧ inventory.isStatic ref = decided catalogue

theorem holds_start : Holds catalogue {} fun _ => [] :=
  ⟨fun _ => List.nodup_nil, by simp [active], by simp [isStatic], by simp [active], by simp⟩

variable {catalogue}

variable {inventory : ToolInventory} {names : String → List String} {ref : String}

theorem Holds.moved {next : ToolInventory} (holds : Holds catalogue inventory names)
    {others : List String} (flags : next.isStatic = inventory.isStatic)
    (cache : next.cache = inventory.cache)
    (elsewhere : ∀ other, other ≠ ref → next.active other = inventory.active other)
    (apart : (next.active ref).Nodup)
    (known : ∀ name ∈ next.active ref, isSelectable settings catalogue.snapshot name = true)
    (gathered : ¬catalogue.AllFit → ∀ name, isSelectable settings catalogue.snapshot name = true →
      (name ∈ next.active ref ↔ name ∈ others)) :
    Holds catalogue next (Function.update names ref others) := by
  constructor
  case apart =>
    intro other
    by_cases same : other = ref
    · rw [same]
      exact apart
    · rw [elsewhere other same]
      exact holds.apart other
  case known =>
    intro other
    by_cases same : other = ref
    · rw [same]
      exact known
    · rw [elsewhere other same]
      exact holds.known other
  case fits =>
    rw [flags]
    exact holds.fits
  case gathered =>
    intro tight other
    by_cases same : other = ref
    · rw [same, Function.update_self]
      exact gathered tight
    · rw [elsewhere other same, Function.update_of_ne same]
      exact holds.gathered tight other
  case cached =>
    rw [flags, cache]
    exact holds.cached

def fresh (catalogue : Catalogue settings) (active names : List String) : List String :=
  (catalogue.tools.map Tool.name).filter fun name =>
    decide (name ∈ (names.filter (isSelectable settings catalogue.snapshot)).dedup) &&
      decide (name ∉ active)

theorem mem_fresh {active names : List String} {name : String} :
    name ∈ fresh catalogue active names ↔
      isSelectable settings catalogue.snapshot name = true ∧ name ∈ names ∧ name ∉ active := by
  simp only [fresh, List.mem_filter, Bool.and_eq_true, decide_eq_true_eq, List.mem_dedup]
  constructor
  · rintro ⟨_, ⟨named, selectable⟩, absent⟩
    exact ⟨selectable, named, absent⟩
  · rintro ⟨selectable, named, absent⟩
    obtain ⟨tool, member, rfl, _⟩ := catalogue.isSelectable_iff.mp selectable
    exact ⟨List.mem_map_of_mem member, ⟨named, selectable⟩, absent⟩

theorem activate_keeps (inventory : ToolInventory) (ref : String) (names : List String) :
    (inventory.activate settings ref catalogue.snapshot names).1.isStatic = inventory.isStatic ∧
      (inventory.activate settings ref catalogue.snapshot names).1.cache = inventory.cache := by
  unfold activate
  simp only
  split <;> exact ⟨rfl, rfl⟩

theorem active_activate (inventory : ToolInventory) (ref other : String) (names : List String) :
    (inventory.activate settings ref catalogue.snapshot names).1.active other =
      if other = ref then inventory.active ref ++ fresh catalogue (inventory.active ref) names
      else inventory.active other := by
  unfold activate
  simp only
  split
  next none =>
    have nothing : fresh catalogue (inventory.active ref) names = [] := by
      rw [fresh, none]
      simp
    by_cases same : other = ref
    · rw [if_pos same, nothing, List.append_nil, same]
    · rw [if_neg same]
  next => exact active_setActive inventory ref other _

theorem Holds.activate (holds : Holds catalogue inventory names) (ref : String)
    (others : List String) :
    Holds catalogue (inventory.activate settings ref catalogue.snapshot others).1
      (Function.update names ref (names ref ++ others)) := by
  obtain ⟨flags, cache⟩ := @activate_keeps settings catalogue inventory ref others
  refine holds.moved flags cache ?elsewhere ?apart ?known ?gathered
  case elsewhere =>
    intro other different
    rw [active_activate, if_neg different]
  all_goals rw [active_activate, if_pos rfl]
  case apart =>
    have added : (fresh catalogue (inventory.active ref) others).Nodup := catalogue.unique.filter _
    refine List.Nodup.append (holds.apart ref) added fun name old new => ?_
    exact (mem_fresh.mp new).2.2 old
  case known =>
    intro name member
    rcases List.mem_append.mp member with old | new
    · exact holds.known ref name old
    · exact (mem_fresh.mp new).1
  case gathered =>
    intro tight name selectable
    rw [List.mem_append, List.mem_append, mem_fresh, holds.gathered tight ref name selectable]
    tauto

theorem rejoin_spec (names : List String) : ∀ active : List String, active.Nodup →
    (rejoin settings catalogue.snapshot active names).Nodup ∧
      ∀ name, name ∈ rejoin settings catalogue.snapshot active names ↔
        name ∈ active ∨ isSelectable settings catalogue.snapshot name = true ∧ name ∈ names := by
  induction names with
  | nil =>
    intro active apart
    exact ⟨apart, fun name => by simp [rejoin]⟩
  | cons first names ih =>
    intro active apart
    rw [rejoin]
    split
    next joins =>
      have longer : (active ++ [first]).Nodup := by
        rw [← List.concat_eq_append]
        exact apart.concat joins.2
      obtain ⟨nodup, members⟩ := ih (active ++ [first]) longer
      refine ⟨nodup, fun name => ?_⟩
      rw [members name, List.mem_append, List.mem_singleton, List.mem_cons]
      constructor
      · rintro ((old | rfl) | ⟨selectable, later⟩)
        · exact .inl old
        · exact .inr ⟨joins.1, .inl rfl⟩
        · exact .inr ⟨selectable, .inr later⟩
      · rintro (old | ⟨selectable, rfl | later⟩)
        · exact .inl (.inl old)
        · exact .inl (.inr rfl)
        · exact .inr ⟨selectable, later⟩
    next stays =>
      obtain ⟨nodup, members⟩ := ih active apart
      refine ⟨nodup, fun name => ?_⟩
      rw [members name, List.mem_cons]
      constructor
      · rintro (old | ⟨selectable, later⟩)
        · exact .inl old
        · exact .inr ⟨selectable, .inr later⟩
      · rintro (old | ⟨selectable, rfl | later⟩)
        · exact .inl old
        · exact .inl (not_not.mp fun absent => stays ⟨selectable, absent⟩)
        · exact .inr ⟨selectable, later⟩

theorem rejoin_known (names : List String) : ∀ active : List String, (active ++ names).Nodup →
    (∀ name ∈ names, isSelectable settings catalogue.snapshot name = true) →
      rejoin settings catalogue.snapshot active names = active ++ names := by
  induction names with
  | nil => intro active _ _; rw [rejoin, List.append_nil]
  | cons first names ih =>
    intro active apart known
    have absent : first ∉ active := fun member =>
      (List.nodup_append.mp apart).2.2 first member first List.mem_cons_self rfl
    rw [rejoin, if_pos ⟨known first List.mem_cons_self, absent⟩,
      ih (active ++ [first]) (by rwa [List.append_assoc, List.singleton_append])
        fun name member => known name (List.mem_cons_of_mem first member),
      List.append_assoc, List.singleton_append]

theorem Holds.restore (holds : Holds catalogue inventory names) (ref : String)
    (others : List String) :
    Holds catalogue (inventory.restoreManifest settings ref catalogue.snapshot others)
      (Function.update names ref (names ref ++ others)) := by
  obtain ⟨nodup, members⟩ :=
    @rejoin_spec settings catalogue others (inventory.active ref) (holds.apart ref)
  have moved : ∀ other, (inventory.restoreManifest settings ref catalogue.snapshot others).active
      other = if other = ref then rejoin settings catalogue.snapshot (inventory.active ref) others
        else inventory.active other := fun other => active_setActive inventory ref other _
  refine holds.moved rfl rfl ?elsewhere ?apart ?known ?gathered
  case elsewhere =>
    intro other different
    rw [moved, if_neg different]
  all_goals rw [moved, if_pos rfl]
  case apart => exact nodup
  case known =>
    intro name member
    rcases (members name).mp member with old | ⟨selectable, _⟩
    · exact holds.known ref name old
    · exact selectable
  case gathered =>
    intro tight name selectable
    rw [members name, List.mem_append, holds.gathered tight ref name selectable]
    tauto

theorem project_static (flag : inventory.isStatic ref = true) (all : catalogue.AllFit) :
    inventory.project settings ref catalogue.snapshot =
      (inventory, .ok (catalogue.alwaysOn ++
        (catalogue.snapshot.deferred settings).map modelSignature)) := by
  rw [project, if_pos flag]
  exact if_neg (not_lt.mpr all)

theorem project_deferred (flag : inventory.isStatic ref = false) :
    inventory.project settings ref catalogue.snapshot =
      (inventory, inventory.projectDeferred settings ref catalogue.snapshot) := by
  rw [project, flag]
  rfl

theorem Holds.project_fst (holds : Holds catalogue inventory names) (ref : String) :
    (inventory.project settings ref catalogue.snapshot).1 = inventory := by
  cases flag : inventory.isStatic ref with
  | true => rw [project_static flag (holds.fits ref flag)]
  | false => rw [project_deferred flag]

theorem Holds.fits_active (holds : Holds catalogue inventory names) (ref : String) :
    catalogue.Fits (inventory.active ref) ↔ catalogue.Fits (names ref) := by
  by_cases all : catalogue.AllFit
  · exact iff_of_true (catalogue.fits_of_allFit all _) (catalogue.fits_of_allFit all _)
  · exact catalogue.fits_congr (holds.gathered all ref)

theorem shouldUseStatic_error {refusal : String}
    (refused : shouldUseStatic settings catalogue.snapshot = .error refusal) :
    ¬catalogue.AllFit := by
  unfold shouldUseStatic at refused
  split at refused
  · cases refused
  · simp only at refused
    split at refused
    next isOver => exact not_le.mpr isOver.2
    next => cases refused

theorem Holds.load (holds : Holds catalogue inventory names) (ref digest : String) :
    Holds catalogue (inventory.load settings ref digest catalogue.listed).1 names := by
  unfold ToolInventory.load
  split
  next => exact holds
  next =>
    rw [catalogue.discovered]
    simp only
    have cachedAt : ∀ other d snapshot,
        (inventory.remember ref digest catalogue.snapshot).cache other d = some snapshot →
          snapshot = catalogue.snapshot ∧ (other = ref ∨
            inventory.isStatic other = decided catalogue) := by
      intro other d snapshot found
      by_cases same : other = ref
      · subst same
        refine ⟨?_, .inl rfl⟩
        by_cases this : d = digest
        · subst this
          simpa [remember, eq_comm] using found
        · exact (holds.cached other d snapshot (by simpa [remember, this] using found)).1
      · have old := holds.cached other d snapshot (by simpa [remember, same] using found)
        exact ⟨old.1, .inr old.2⟩
    split
    next refusal refused =>
      have tight := shouldUseStatic_error refused
      have undecided : decided catalogue = false := by
        rw [decided, refused]
        simp
      have unset : ∀ other, inventory.isStatic other = false := fun other =>
        Bool.eq_false_iff.mpr fun flag => tight (holds.fits other flag)
      refine ⟨holds.apart, holds.known, holds.fits, holds.gathered, fun other d snapshot found => ?_⟩
      exact ⟨(cachedAt other d snapshot found).1, (unset other).trans undecided.symm⟩
    next flag returned =>
      have isDecided : flag = decided catalogue := by
        rw [decided, returned]
        cases flag <;> simp
      have kept : Holds catalogue
          ((inventory.remember ref digest catalogue.snapshot).setStatic ref flag) names := by
        refine ⟨holds.apart, holds.known, fun other isSet => ?_, holds.gathered,
          fun other d snapshot found => ?_⟩
        · rw [isStatic_setStatic] at isSet
          split at isSet
          · exact allFit_of_decided catalogue (isDecided.symm.trans isSet)
          · exact holds.fits other isSet
        · obtain ⟨same, flagged⟩ := cachedAt other d snapshot found
          refine ⟨same, ?_⟩
          rw [isStatic_setStatic]
          split
          · exact isDecided
          next other => exact flagged.resolve_left other
      split
      next => exact kept
      next active present =>
        have isActive : active = inventory.active ref := by
          rw [ToolInventory.active, show inventory.activeDeferred ref = some active from present]
          rfl
        have listed : (active.filter fun name =>
            decide (name ∈ catalogue.snapshot.tools.map Tool.name)) = active := by
          refine List.filter_eq_self.mpr fun name member => ?_
          rw [isActive] at member
          obtain ⟨tool, there, rfl, _⟩ := catalogue.isSelectable_iff.mp (holds.known ref name member)
          exact decide_eq_true (List.mem_map_of_mem there)
        rw [listed]
        have still : ∀ other, (((inventory.remember ref digest catalogue.snapshot).setStatic ref
            flag).setActive ref active).active other = inventory.active other := by
          intro other
          rw [active_setActive]
          split
          next same => rw [same, isActive]
          next => rfl
        refine ⟨fun other => ?_, fun other => ?_, kept.fits, fun tight other => ?_, kept.cached⟩
        · rw [still]
          exact holds.apart other
        · rw [still]
          exact holds.known other
        · rw [still]
          exact holds.gathered tight other

theorem Holds.invalidate (holds : Holds catalogue inventory names) (ref : String) :
    Holds catalogue (inventory.invalidateSession ref) (Function.update names ref []) := by
  have gone : (inventory.invalidateSession ref).active ref = [] := by
    simp [invalidateSession, active]
  have elsewhere : ∀ other, other ≠ ref →
      (inventory.invalidateSession ref).active other = inventory.active other := by
    intro other different
    simp [invalidateSession, active, different]
  have flags : ∀ other, (inventory.invalidateSession ref).isStatic other =
      if other = ref then false else inventory.isStatic other := by
    intro other
    by_cases same : other = ref <;> simp [invalidateSession, isStatic, same]
  refine ⟨fun other => ?_, fun other => ?_, fun other isSet => ?_, fun tight other => ?_,
    fun other digest snapshot found => ?_⟩
  · by_cases same : other = ref
    · rw [same, gone]
      exact List.nodup_nil
    · rw [elsewhere other same]
      exact holds.apart other
  · by_cases same : other = ref
    · rw [same, gone]
      simp
    · rw [elsewhere other same]
      exact holds.known other
  · rw [flags] at isSet
    split at isSet
    · cases isSet
    · exact holds.fits other isSet
  · by_cases same : other = ref
    · rw [same, gone, Function.update_self]
      simp
    · rw [elsewhere other same, Function.update_of_ne same]
      exact holds.gathered tight other
  · by_cases same : other = ref
    · simp [invalidateSession, same] at found
    · rw [flags, if_neg same]
      exact holds.cached other digest snapshot (by simpa [invalidateSession, same] using found)

theorem projectForTurn_deferred (flag : inventory.isStatic ref = false) (query : String)
    (select : Selector) : let recalled := recallTools settings catalogue.snapshot query select
    let moved := (inventory.activate settings ref catalogue.snapshot recalled.names).1
    inventory.projectForTurn settings ref catalogue.snapshot query select =
      (moved, (moved.projectDeferred settings ref catalogue.snapshot).map fun tools =>
        { tools
          mode := recalled.mode
          matchedNames := recalled.names.dedup.insertionSort (· ≤ ·)
          schemaHits := schemaHits settings tools }) := by
  intro recalled moved
  have still : moved.isStatic ref = false := by
    rw [(activate_keeps inventory ref _).1, flag]
  rw [projectForTurn, flag]
  simp only [Bool.false_eq_true, if_false]
  rw [project_deferred still]

theorem projectForTurn_static (flag : inventory.isStatic ref = true) (all : catalogue.AllFit)
    (query : String) (select : Selector) :
    inventory.projectForTurn settings ref catalogue.snapshot query select =
      (inventory, .ok
        { tools := catalogue.alwaysOn ++ (catalogue.snapshot.deferred settings).map modelSignature,
          mode := "static", matchedNames := [],
          schemaHits := schemaHits settings (catalogue.alwaysOn ++
            (catalogue.snapshot.deferred settings).map modelSignature) }) := by
  rw [projectForTurn, if_pos flag, project_static flag all]
  rfl

theorem Holds.turn (holds : Holds catalogue inventory names) (ref query : String)
    (select : Selector) :
    Holds catalogue (inventory.projectForTurn settings ref catalogue.snapshot query select).1
      (Function.update names ref
        (names ref ++ (recallTools settings catalogue.snapshot query select).names)) := by
  cases flag : inventory.isStatic ref with
  | true =>
    have all := holds.fits ref flag
    rw [projectForTurn_static flag all]
    refine holds.moved rfl rfl (fun _ _ => rfl) (holds.apart ref) (holds.known ref) ?_
    exact fun tight => absurd all tight
  | false =>
    rw [projectForTurn_deferred flag]
    exact holds.activate ref _

theorem Holds.step (holds : Holds catalogue inventory names) (act : Act) :
    Holds catalogue (step catalogue inventory act) (ask catalogue names act) := by
  cases act with
  | load ref digest => exact holds.load ref digest
  | turn ref query select => exact holds.turn ref query select
  | activate ref others => exact holds.activate ref others
  | project ref =>
    change Holds catalogue (inventory.project settings ref catalogue.snapshot).1 names
    rw [holds.project_fst ref]
    exact holds
  | restore ref others => exact holds.restore ref others
  | invalidate ref => exact holds.invalidate ref

theorem holds_after (acts : List Act) :
    Holds catalogue (after catalogue acts) (asked catalogue acts) := by
  induction acts using List.reverseRecOn with
  | nil => exact holds_start catalogue
  | append_singleton acts act ih =>
    rw [after, asked, List.foldl_append, List.foldl_append]
    exact ih.step act

variable (catalogue) in
/-- The last of the activated tools, as many as fit beside the ones that are always on. -/
def mostRecent (active : List String) : List String :=
  (active.tails.find? fun names => decide (catalogue.Fits names)).getD []

variable (catalogue) in
/-- A turn that went through: within the budget, with every tool that is always on and with the
most recently activated ones. -/
structure Projected (outcome : ToolInventory × Except String ToolProjection) (ref : String) :
    Prop where
  succeeded : ∃ projection, outcome.2 = .ok projection ∧
    totalSize projection.tools ≤ settings.schemaCharBudget ∧
    (∀ signature ∈ catalogue.alwaysOn, signature ∈ projection.tools) ∧
    ∀ name ∈ mostRecent catalogue (outcome.1.active ref), ∃ tool ∈ catalogue.tools,
      tool.name = name ∧ modelSignature tool ∈ projection.tools

theorem mem_of_mem_mostRecent {active : List String} {name : String}
    (member : name ∈ mostRecent catalogue active) : name ∈ active := by
  rw [mostRecent] at member
  cases found : active.tails.find? fun names => decide (catalogue.Fits names) with
  | none =>
    rw [found] at member
    cases member
  | some names =>
    rw [found] at member
    have suffix := List.mem_of_find?_eq_some found
    exact ((List.mem_tails names active).mp suffix).subset member

theorem totalSize_projected (holds : Holds catalogue inventory names) (ref : String) :
    totalSize (catalogue.alwaysOn ++
      ((inventory.active ref).filterMap catalogue.snapshot.byName).map modelSignature) ≤
        settings.schemaCharBudget ↔ catalogue.Fits (inventory.active ref) := by
  have same := totalSize_perm (catalogue.perm_among (holds.apart ref) (holds.known ref))
  rw [Catalogue.Fits, totalSize_append, totalSize_append, same]

theorem projectDeferred_over
    (isOver : settings.schemaCharBudget < totalSize
      (catalogue.alwaysOn ++ ((inventory.active ref).filterMap catalogue.snapshot.byName).map
      modelSignature)) :
    inventory.projectDeferred settings ref catalogue.snapshot = .error overBudget :=
  if_pos isOver

theorem projectDeferred_fits
    (fits : totalSize (catalogue.alwaysOn ++
      ((inventory.active ref).filterMap catalogue.snapshot.byName).map modelSignature) ≤
        settings.schemaCharBudget) :
    inventory.projectDeferred settings ref catalogue.snapshot = .ok (catalogue.alwaysOn ++
      ((inventory.active ref).filterMap catalogue.snapshot.byName).map modelSignature) :=
  if_neg (not_lt.mpr fits)

theorem projected_iff (holds : Holds catalogue inventory names) (ref query : String)
    (select : Selector) : Projected catalogue
        (inventory.projectForTurn settings ref catalogue.snapshot query select) ref ↔
      catalogue.Fits (ask catalogue names (.turn ref query select) ref) := by
  have later := holds.turn ref query select
  rw [show ask catalogue names (.turn ref query select) = Function.update names ref
    (names ref ++ (recallTools settings catalogue.snapshot query select).names) from rfl,
    ← later.fits_active ref]
  cases flag : inventory.isStatic ref with
  | true =>
    have all := holds.fits ref flag
    refine iff_of_true ?_ (catalogue.fits_of_allFit all _)
    rw [projectForTurn_static flag all]
    refine ⟨_, rfl, all, fun signature member => List.mem_append_left _ member, ?_⟩
    intro name member
    obtain ⟨tool, there, rfl, deferred⟩ :=
      catalogue.isSelectable_iff.mp (holds.known ref name (mem_of_mem_mostRecent member))
    refine ⟨tool, there, rfl, List.mem_append_right _ (List.mem_map_of_mem ?_)⟩
    exact List.mem_filter.mpr ⟨there, deferred⟩
  | false =>
    rw [projectForTurn_deferred flag] at later ⊢
    simp only at later ⊢
    rw [← totalSize_projected later ref]
    constructor
    · rintro ⟨projection, went, _⟩
      by_contra isOver
      rw [projectDeferred_over (not_le.mp isOver)] at went
      cases went
    · intro fits
      rw [projectDeferred_fits fits]
      refine ⟨_, rfl, fits, fun signature member => List.mem_append_left _ member, ?_⟩
      intro name member
      have active := mem_of_mem_mostRecent member
      obtain ⟨tool, there, named, _⟩ := catalogue.isSelectable_iff.mp (later.known ref name active)
      refine ⟨tool, there, named, List.mem_append_right _ (List.mem_map_of_mem ?_)⟩
      exact List.mem_filterMap.mpr ⟨name, active, catalogue.byName_iff.mpr ⟨there, named⟩⟩

variable (catalogue) in
/-- A new process that discovers the tools again and takes up a manifest. -/
def restarted (ref digest : String) (manifest : List String) : ToolInventory :=
  (({} : ToolInventory).load settings ref digest catalogue.listed).1.restoreManifest settings ref
    catalogue.snapshot manifest

theorem projectForTurn_congr {other : ToolInventory}
    (flags : inventory.isStatic ref = other.isStatic ref)
    (same : inventory.active ref = other.active ref) (query : String) (select : Selector) :
    (inventory.projectForTurn settings ref catalogue.snapshot query select).2 =
      (other.projectForTurn settings ref catalogue.snapshot query select).2 := by
  have projects : ∀ {first second : ToolInventory}, first.active ref = second.active ref →
      first.projectDeferred settings ref catalogue.snapshot =
        second.projectDeferred settings ref catalogue.snapshot := by
    intro first second equal
    rw [projectDeferred, projectDeferred, equal]
  cases flag : inventory.isStatic ref with
  | true =>
    rw [flag] at flags
    have whole : (inventory.project settings ref catalogue.snapshot).2 =
        (other.project settings ref catalogue.snapshot).2 := by
      rw [project, project, if_pos flag, if_pos flags.symm]
      simp only
      split
      · exact projects same
      · rfl
    simp only [projectForTurn, flag, ← flags, if_true, whole]
  | false =>
    rw [flag] at flags
    rw [projectForTurn_deferred flag, projectForTurn_deferred flags.symm]
    simp only
    refine congrArg _ (projects ?_)
    rw [active_activate, active_activate, if_pos rfl, if_pos rfl, same]

theorem restarted_same (holds : Holds catalogue inventory names) {digest : String}
    (loaded : inventory.cache ref digest ≠ none) (query : String) (select : Selector) :
    ((restarted catalogue ref digest (inventory.activeManifest ref)).projectForTurn settings ref
        catalogue.snapshot query select).2 =
      (inventory.projectForTurn settings ref catalogue.snapshot query select).2 := by
  obtain ⟨snapshot, cached⟩ := Option.ne_none_iff_exists'.mp loaded
  have fresh := (holds_start catalogue).load ref digest
  refine projectForTurn_congr ?_ ?_ query select
  · have again : (({} : ToolInventory).load settings ref digest catalogue.listed).1.cache ref digest =
        some catalogue.snapshot := by
      unfold ToolInventory.load
      rw [catalogue.discovered]
      simp only
      split
      · simp [remember]
      · split <;> simp [remember]
    exact (fresh.cached ref digest _ again).2.trans (holds.cached ref digest snapshot cached).2.symm
  · have empty : (({} : ToolInventory).load settings ref digest catalogue.listed).1.active ref = [] := by
      unfold ToolInventory.load
      rw [catalogue.discovered]
      simp only
      split
      · rfl
      · split
        · rfl
        next present => cases present
    rw [restarted, restoreManifest, active_setActive, if_pos rfl, empty]
    exact rejoin_known _ [] (holds.apart ref) (holds.known ref)

variable (catalogue) in
/-- Every turn of a run goes through, and a restart in between would not show. -/
structure Usable (acts : List Act) : Prop where
  turns : ∀ before ref query select, before ++ [.turn ref query select] <+: acts →
    Projected catalogue
      ((after catalogue before).projectForTurn settings ref catalogue.snapshot query select) ref
  restarts : ∀ before, before <+: acts → ∀ ref digest,
    (after catalogue before).cache ref digest ≠ none → ∀ query select,
      ((restarted catalogue ref digest ((after catalogue before).activeManifest ref)).projectForTurn
          settings ref catalogue.snapshot query select).2 =
        ((after catalogue before).projectForTurn settings ref catalogue.snapshot query select).2

theorem turn_projected_iff (before : List Act) (ref query : String) (select : Selector) :
    Projected catalogue
        ((after catalogue before).projectForTurn settings ref catalogue.snapshot query select) ref ↔
      catalogue.Fits (asked catalogue (before ++ [.turn ref query select]) ref) := by
  rw [projected_iff (holds_after before) ref query select, asked, asked, List.foldl_append]
  rfl

variable (catalogue) in
/-- For any settings, any catalogue and any run of any number of sessions: the sessions stay usable
exactly if at every turn the tools that the session has asked for fit beside the ones that are
always on. -/
theorem sessions_usable_iff (acts : List Act) : Usable catalogue acts ↔
      ∀ before ref query select, before ++ [Act.turn ref query select] <+: acts →
        catalogue.Fits (asked catalogue (before ++ [Act.turn ref query select]) ref) := by
  constructor
  · intro usable before ref query select part
    exact (turn_projected_iff before ref query select).mp
      (usable.turns before ref query select part)
  · intro fits
    refine ⟨fun before ref query select part => ?_, fun before _ ref digest loaded => ?_⟩
    · exact (turn_projected_iff before ref query select).mpr (fits before ref query select part)
    · exact restarted_same (holds_after before) loaded

end

def sampleSettings : Settings where
  schemaCharBudget := 1000
  casefold := String.toLower
  toolTagsFor _ := []
  str _ := ""
  budget_at_least := le_refl 1000

/-- A tool whose only argument is one long number. -/
def sampleTool (name : String) : Tool where
  name := name
  description := ""
  inputSchema := .obj [("const", .int (10 ^ 250))]

def sampleNames : List String :=
  ["web_search", "mcp__jira__get", "mcp__jira__add", "mcp__jira__list", "mcp__jira__find"]

def sampleCatalogue : Catalogue sampleSettings where
  listed := sampleNames.map fun name => .obj
    [("name", .str name), ("inputSchema", .obj [("const", .int (10 ^ 250))])]
  snapshot :=
    { tools := sampleNames.map sampleTool
      schemaChars := ((sampleNames.map sampleTool).map fun tool =>
        serializedSize tool.document).sum }
  discovered := by rfl

/-- Every tool was looked up once with `tool_help`; no later turn goes through, whatever it is
about. -/
theorem helped_session_refused : sampleCatalogue.Fits [] ∧ ∀ query select, ¬Usable sampleCatalogue
      [.load "s" "d", .activate "s" ["mcp__jira__get", "mcp__jira__add"],
        .activate "s" ["mcp__jira__list", "mcp__jira__find"], .turn "s" query select] := by
  have many : ¬sampleCatalogue.Fits ["mcp__jira__get", "mcp__jira__add", "mcp__jira__list",
      "mcp__jira__find"] := by
    decide +kernel
  let before : List Act := [.load "s" "d", .activate "s" ["mcp__jira__get", "mcp__jira__add"],
    .activate "s" ["mcp__jira__list", "mcp__jira__find"]]
  refine ⟨by decide +kernel, fun query select usable => ?_⟩
  have went := usable.turns before "s" query select (List.prefix_refl _)
  refine many (sampleCatalogue.fits_mono ?_ ((turn_projected_iff _ "s" query select).mp went))
  exact fun name member => List.mem_append_left _ member

end Knoa.Runtime.ToolInventory
