/-
This file follows chains of parents in a map of tag types.

A chain is followed by names: the type so many steps up from a type, with no bound on the
steps. It may end at a type without a parent, run into a name that no type has, or go on for
ever. A chain that ends never comes to a name twice, since a chain that returns goes round. So
the types on a chain that ends are different types of the map, and there are no more of them
than the map has: looking at that many misses none, and walking further than that shows that a
chain goes round.
-/

import DocComments.Proofs.Entries
import DocComments.TagType.Table
import Mathlib.Data.Finset.Card

namespace DocComments

namespace Lineage

variable (types : Entries String TagType)

/-! ### Following parents -/

/-- The parent that a type of the map names. -/
def parent? (name : String) : Option String :=
  (Entries.get? types name).bind TagType.parentType

/-- The name that so many steps up from a type lead to. -/
def ancestor? : Nat → String → Option String
  | 0, name => some name
  | steps + 1, name => (parent? types name).bind (ancestor? steps)

/-- The definition of the type so many steps up, if the map has it. -/
def ancestorType? (steps : Nat) (name : String) : Option TagType :=
  (ancestor? types steps name).bind (Entries.get? types)

/-- Following parents comes to an end, be it at a missing parent. -/
def Ends (name : String) : Prop :=
  ∃ steps, ancestor? types steps name = none

/-- The chain ends at a type of the map that has no parent. -/
def EndsProperly (name : String) : Prop :=
  ∃ steps definition, ancestorType? types steps name = some definition ∧
    definition.parentType = none

variable {types}

theorem ancestor?_add (first second : Nat) (name : String) :
    ancestor? types (first + second) name =
      (ancestor? types first name).bind (ancestor? types second) := by
  induction first generalizing name with
  | zero => rw [Nat.zero_add, ancestor?, Option.bind_some]
  | succ first inductionHypothesis =>
    rw [Nat.succ_add, ancestor?, ancestor?, Option.bind_assoc]
    exact congrArg _ (funext inductionHypothesis)

theorem ancestor?_one (name : String) : ancestor? types 1 name = parent? types name := by
  rw [ancestor?]
  exact Option.bind_fun_some _

theorem ancestor?_eq_none_of_le {first second : Nat} {name : String}
    (ended : ancestor? types first name = none) (later : first ≤ second) :
    ancestor? types second name = none := by
  obtain ⟨rest, rfl⟩ := Nat.exists_eq_add_of_le later
  rw [ancestor?_add, ended, Option.bind_none]

theorem ancestorType?_zero (name : String) :
    ancestorType? types 0 name = Entries.get? types name := by
  rw [ancestorType?, ancestor?, Option.bind_some]

/-- A step towards the parent shortens the way by one. -/
theorem ancestorType?_succ {name parent : String} (up : parent? types name = some parent)
    (steps : Nat) : ancestorType? types (steps + 1) name = ancestorType? types steps parent := by
  rw [ancestorType?, ancestor?, up, Option.bind_some, ancestorType?]

theorem ancestorType?_succ_of_top {name : String} (top : parent? types name = none)
    (steps : Nat) : ancestorType? types (steps + 1) name = none := by
  rw [ancestorType?, ancestor?, top, Option.bind_none, Option.bind_none]

/-- From a name that no type has, no steps lead to a type. -/
theorem ancestorType?_of_unknown {name : String} (unknown : Entries.get? types name = none)
    (steps : Nat) : ancestorType? types steps name = none := by
  cases steps with
  | zero => rw [ancestorType?_zero, unknown]
  | succ steps =>
    refine ancestorType?_succ_of_top ?_ steps
    rw [parent?, unknown, Option.bind_none]

theorem EndsProperly.ends {name : String} (proper : EndsProperly types name) :
    Ends types name := by
  obtain ⟨steps, definition, found, top⟩ := proper
  obtain ⟨last, reached, known⟩ := Option.bind_eq_some_iff.mp found
  refine ⟨steps + 1, ?_⟩
  rw [ancestor?_add, reached, Option.bind_some, ancestor?_one, parent?, known, Option.bind_some,
    top]

/-! ### A chain that ends does not return -/

theorem ends_of_ancestor? {name link : String} {steps : Nat} (ends : Ends types name)
    (reached : ancestor? types steps name = some link) : Ends types link := by
  obtain ⟨bound, ended⟩ := ends
  refine ⟨bound, ?_⟩
  have later := ancestor?_eq_none_of_le ended (Nat.le_add_left bound steps)
  rwa [ancestor?_add, reached, Option.bind_some] at later

/-- A name from which a chain returns to it is reached again after every round. -/
theorem ancestor?_rounds {name : String} {period : Nat}
    (returns : ancestor? types period name = some name) (rounds : Nat) :
    ancestor? types (rounds * period) name = some name := by
  induction rounds with
  | zero => rw [Nat.zero_mul, ancestor?]
  | succ rounds inductionHypothesis =>
    rw [Nat.succ_mul, ancestor?_add, inductionHypothesis, Option.bind_some, returns]

theorem not_returns_of_ends {name : String} {period : Nat} (ends : Ends types name)
    (positive : 0 < period) : ancestor? types period name ≠ some name := by
  intro returns
  obtain ⟨bound, ended⟩ := ends
  have late := ancestor?_eq_none_of_le ended (Nat.le_mul_of_pos_right bound positive)
  rw [ancestor?_rounds returns bound] at late
  cases late

theorem ancestor?_ne_of_lt {name link : String} {first second : Nat} (ends : Ends types name)
    (before : first < second) (reached : ancestor? types first name = some link) :
    ancestor? types second name ≠ some link := by
  intro again
  obtain ⟨period, rfl⟩ := Nat.exists_eq_add_of_lt before
  rw [Nat.add_assoc, ancestor?_add, reached, Option.bind_some] at again
  exact not_returns_of_ends (ends_of_ancestor? ends reached) (Nat.succ_pos period) again

theorem ancestor?_injective {name link : String} {first second : Nat} (ends : Ends types name)
    (reached : ancestor? types first name = some link)
    (again : ancestor? types second name = some link) : first = second := by
  rcases Nat.lt_trichotomy first second with before | same | after
  · exact absurd again (ancestor?_ne_of_lt ends before reached)
  · exact same
  · exact absurd reached (ancestor?_ne_of_lt ends after again)

/-- All names on the way to a type of the map are names of the map. -/
theorem mem_keys_of_ancestorType? {name : String} {steps : Nat}
    (known : (ancestorType? types steps name).isSome) (fewer : Nat) (notMore : fewer ≤ steps) :
    ∃ link, ancestor? types fewer name = some link ∧ link ∈ Entries.keys types := by
  obtain ⟨rest, rfl⟩ := Nat.exists_eq_add_of_le notMore
  rw [ancestorType?, ancestor?_add, Option.bind_assoc, Option.isSome_iff_exists] at known
  obtain ⟨definition, found⟩ := known
  obtain ⟨link, reached, onward⟩ := Option.bind_eq_some_iff.mp found
  refine ⟨link, reached, ?_⟩
  by_contra unknown
  have lost := ancestorType?_of_unknown (Entries.get?_eq_none_iff.mpr unknown) rest
  rw [ancestorType?, onward] at lost
  cases lost

/-- A chain that ends has no more types than the map. -/
theorem ancestorType?_length_eq_none {name : String} (ends : Ends types name) :
    ancestorType? types types.length name = none := by
  by_contra known
  have onWay := mem_keys_of_ancestorType? (Option.isSome_iff_ne_none.mpr known)
  -- the names from the type itself on are different names of the map, one too many
  have intoKeys : ∀ steps ∈ Finset.range (types.length + 1),
      (ancestor? types steps name).getD "" ∈ (Entries.keys types).toFinset := by
    intro steps member
    obtain ⟨link, reached, isKey⟩ := onWay steps (Nat.lt_succ_iff.mp (Finset.mem_range.mp member))
    rw [reached, Option.getD_some]
    exact List.mem_toFinset.mpr isKey
  have different : Set.InjOn (fun steps => (ancestor? types steps name).getD "")
      (Finset.range (types.length + 1)) := by
    intro first firstMember second secondMember same
    obtain ⟨link, reached, -⟩ :=
      onWay first (Nat.lt_succ_iff.mp (Finset.mem_range.mp firstMember))
    obtain ⟨other, otherReached, -⟩ :=
      onWay second (Nat.lt_succ_iff.mp (Finset.mem_range.mp secondMember))
    simp only [reached, otherReached, Option.getD_some] at same
    exact ancestor?_injective ends reached (same ▸ otherReached)
  have count := Finset.card_le_card_of_injOn _ intoKeys different
  have keysCount := List.toFinset_card_le (Entries.keys types)
  rw [Entries.keys, List.length_map] at keysCount
  rw [Finset.card_range] at count
  exact absurd (count.trans keysCount) (Nat.not_succ_le_self _)

theorem ancestorType?_eq_none_of_length_le {name : String} {steps : Nat}
    (ends : Ends types name) (long : types.length ≤ steps) :
    ancestorType? types steps name = none := by
  by_contra known
  obtain ⟨link, reached, isKey⟩ :=
    mem_keys_of_ancestorType? (Option.isSome_iff_ne_none.mpr known) types.length long
  obtain ⟨definition, found⟩ := Entries.exists_get?_of_mem_keys isKey
  have none := ancestorType?_length_eq_none ends
  rw [ancestorType?, reached, Option.bind_some, found] at none
  cases none

/-! ### The nearest type of a chain -/

/-- The value is that of the nearest type on the chain which has one. -/
def Nearest {Value : Type} (types : Entries String TagType) (name : String)
    (value? : TagType → Option Value) (value : Value) : Prop :=
  ∃ steps definition, ancestorType? types steps name = some definition ∧
    value? definition = some value ∧
    ∀ fewer < steps, ∀ nearer, ancestorType? types fewer name = some nearer → value? nearer = none

/-- No type on the chain has a value. -/
def Lacking {Value : Type} (types : Entries String TagType) (name : String)
    (value? : TagType → Option Value) : Prop :=
  ∀ steps definition, ancestorType? types steps name = some definition → value? definition = none

end Lineage

theorem findSome?_eq_some_iff_getElem? {Item Value : Type} {items : List Item}
    {value? : Item → Option Value} {value : Value} :
    items.findSome? value? = some value ↔
      ∃ (place : Nat) (item : Item), items[place]? = some item ∧ value? item = some value ∧
        ∀ before < place, ∀ other, items[before]? = some other → value? other = none := by
  rw [List.findSome?_eq_some_iff]
  constructor
  · rintro ⟨nearer, item, further, rfl, own, first⟩
    refine ⟨nearer.length, item, by simp, own, fun before early other found => ?_⟩
    rw [List.getElem?_append_left early] at found
    exact first other (List.mem_of_getElem? found)
  · rintro ⟨place, item, found, own, first⟩
    obtain ⟨inside, rfl⟩ := List.getElem?_eq_some_iff.mp found
    refine ⟨items.take place, items[place], items.drop (place + 1), by simp, own, ?_⟩
    intro other member
    obtain ⟨before, otherFound⟩ := List.mem_iff_getElem?.mp member
    rw [List.getElem?_take] at otherFound
    split at otherFound
    · rename_i early
      exact first before early other otherFound
    · cases otherFound

namespace TagTable

open Lineage

theorem parent?_of_known {table : TagTable} {name : String} {definition : TagType}
    (found : table.get? name = some definition) :
    parent? table.types name = definition.parentType := by
  rw [parent?, show Entries.get? table.types name = some definition from found, Option.bind_some]

/-- The bounded list of ancestors has at each place the type that many steps up. -/
theorem ancestry_getElem? {table : TagTable} {name : String} {definition : TagType}
    (found : table.get? name = some definition) (bound steps : Nat) :
    (table.ancestry bound definition)[steps]? =
      if steps < bound then ancestorType? table.types steps name else none := by
  induction bound generalizing name definition steps with
  | zero => rfl
  | succ bound inductionHypothesis =>
    rw [ancestry]
    cases steps with
    | zero =>
      rw [if_pos (Nat.succ_pos bound), ancestorType?_zero]
      exact found.symm
    | succ steps =>
      rw [List.getElem?_cons_succ]
      simp only [Nat.add_lt_add_iff_right]
      have up := parent?_of_known found
      cases parentType : definition.parentType with
      | none =>
        rw [Option.bind_none, ancestorType?_succ_of_top (up.trans parentType), ite_self]
        rfl
      | some parent =>
        rw [Option.bind_some, ancestorType?_succ (up.trans parentType)]
        cases parentFound : table.get? parent with
        | none =>
          rw [ancestorType?_of_unknown parentFound, ite_self]
          rfl
        | some parentDefinition => exact inductionHypothesis parentFound steps

/-- Where the chain ends, the bounded list holds all of it. -/
theorem ancestry_getElem?_of_ends {table : TagTable} {name : String} {definition : TagType}
    (found : table.get? name = some definition) (ends : Ends table.types name) (steps : Nat) :
    (table.ancestry table.types.length definition)[steps]? =
      ancestorType? table.types steps name := by
  rw [ancestry_getElem? found]
  split
  · rfl
  · rename_i far
    rw [ancestorType?_eq_none_of_length_le ends (Nat.le_of_not_lt far)]

theorem findSome?_ancestry_eq_some_iff {Value : Type} {table : TagTable} {name : String}
    {definition : TagType} (found : table.get? name = some definition)
    (ends : Ends table.types name) {value? : TagType → Option Value} {value : Value} :
    (table.ancestry table.types.length definition).findSome? value? = some value ↔
      Nearest table.types name value? value := by
  rw [findSome?_eq_some_iff_getElem?]
  simp only [ancestry_getElem?_of_ends found ends, Nearest]

theorem findSome?_ancestry_eq_none_iff {Value : Type} {table : TagTable} {name : String}
    {definition : TagType} (found : table.get? name = some definition)
    (ends : Ends table.types name) {value? : TagType → Option Value} :
    (table.ancestry table.types.length definition).findSome? value? = none ↔
      Lacking table.types name value? := by
  rw [List.findSome?_eq_none_iff]
  simp only [List.mem_iff_getElem?, forall_exists_index, ancestry_getElem?_of_ends found ends,
    Lacking]
  exact forall_comm

/-! ### Look-ups -/

theorem chain_of_known {table : TagTable} {name : String} {definition : TagType}
    (found : table.get? name = some definition) :
    table.chain name = .ok (table.ancestry table.types.length definition) := by
  rw [chain, require, found]
  rfl

theorem chain_of_unknown {table : TagTable} {name : String} (unknown : table.get? name = none) :
    table.chain name = .error (.unknownType name) := by
  rw [chain, require, unknown]
  rfl

/-- Where the chain ends, a property resolves to the value of the nearest type that defines it,
and it is missing only if none does. -/
theorem resolve_cases {table : TagTable} {name : String} {definition : TagType}
    (found : table.get? name = some definition) (ends : Ends table.types name)
    (property : TagProperty) :
    (∃ value, table.resolve name property = .ok value ∧
      Nearest table.types name (·.local? property) value) ∨
    (table.resolve name property = .error (.missingProperty name property) ∧
      Lacking table.types name (·.local? property)) := by
  rw [resolve, chain_of_known found]
  simp only [bind, Except.bind]
  cases answer :
      (table.ancestry table.types.length definition).findSome? (·.local? property) with
  | some value =>
    exact Or.inl ⟨value, rfl, (findSome?_ancestry_eq_some_iff found ends).mp answer⟩
  | none => exact Or.inr ⟨rfl, (findSome?_ancestry_eq_none_iff found ends).mp answer⟩

theorem resolve_of_unknown {table : TagTable} {name : String}
    (unknown : table.get? name = none) (property : TagProperty) :
    table.resolve name property = .error (.unknownType name) := by
  rw [resolve, chain_of_unknown unknown]
  rfl

theorem attributeDefault_of_known {table : TagTable} {name : String} {definition : TagType}
    (found : table.get? name = some definition) (key : AttributeKey) :
    table.attributeDefault name key =
      .ok ((table.ancestry table.types.length definition).findSome? (·.attributes.get? key)) := by
  rw [attributeDefault, chain_of_known found]
  rfl

theorem attributeDefault_of_unknown {table : TagTable} {name : String}
    (unknown : table.get? name = none) (key : AttributeKey) :
    table.attributeDefault name key = .error (.unknownType name) := by
  rw [attributeDefault, chain_of_unknown unknown]
  rfl

end TagTable

/-! ### Walking up with a count -/

namespace Lineage

/-- A step of the chain leads from a type of the map to a parent that the map does not have. -/
def Breaks (types : Entries String TagType) (name link parent : String) : Prop :=
  ∃ steps, ancestor? types steps name = some link ∧ parent? types link = some parent ∧
    parent ∉ Entries.keys types

variable {types : Entries String TagType}

theorem EndsProperly.of_parent {name parent : String} (up : parent? types name = some parent)
    (proper : EndsProperly types parent) : EndsProperly types name := by
  obtain ⟨steps, definition, found, top⟩ := proper
  exact ⟨steps + 1, definition, (ancestorType?_succ up steps).trans found, top⟩

theorem Breaks.of_parent {name next link parent : String} (up : parent? types name = some next)
    (breaks : Breaks types next link parent) : Breaks types name link parent := by
  obtain ⟨steps, reached, rest⟩ := breaks
  refine ⟨steps + 1, ?_, rest⟩
  rw [ancestor?, up, Option.bind_some, reached]

/-- A chain that breaks does not end properly: it has only one last link. -/
theorem Breaks.not_endsProperly {name link parent : String}
    (breaks : Breaks types name link parent) : ¬ EndsProperly types name := by
  obtain ⟨steps, reached, up, unknown⟩ := breaks
  rintro ⟨last, definition, found, top⟩
  obtain ⟨lastName, lastReached, lastFound⟩ := Option.bind_eq_some_iff.mp found
  have lastTop : parent? types lastName = none := by
    rw [parent?, lastFound, Option.bind_some, top]
  rcases Nat.lt_trichotomy steps last with before | rfl | after
  · -- the proper end is further up, so the missing parent is on the way to it
    obtain ⟨next, nextReached, isKey⟩ :=
      mem_keys_of_ancestorType? (Option.isSome_iff_exists.mpr ⟨_, found⟩) (steps + 1) before
    rw [ancestor?_add, reached, Option.bind_some, ancestor?_one, up, Option.some.injEq]
      at nextReached
    exact unknown (nextReached ▸ isKey)
  · rw [lastReached, Option.some.injEq] at reached
    rw [← reached, lastTop] at up
    cases up
  · -- the link is above the proper end, where the chain has already ended
    obtain ⟨rest, rfl⟩ := Nat.exists_eq_add_of_lt after
    rw [Nat.add_assoc, ancestor?_add, lastReached, Option.bind_some, Nat.add_comm rest 1,
      ancestor?_add, ancestor?_one, lastTop, Option.bind_none] at reached
    cases reached

end Lineage

namespace TagTable

open Lineage

/-- The three ways in which a walk ends: at a type without a parent, at a missing parent, or with
the steps used up and one more type above. -/
theorem walkUp_cases {table : TagTable} {name : String} {definition : TagType}
    (found : table.get? name = some definition) (start : String) (steps : Nat) :
    (table.walkUp start steps name definition = .ok () ∧ EndsProperly table.types name) ∨
    (∃ link parent,
      table.walkUp start steps name definition = .error (.unknownParent link parent) ∧
      Breaks table.types name link parent) ∨
    (table.walkUp start steps name definition = .error (.cyclicParent start) ∧
      (ancestorType? table.types (steps + 1) name).isSome) := by
  fun_induction walkUp table start steps name definition with
  | case1 steps name definition top =>
    exact Or.inl ⟨rfl, 0, definition, (ancestorType?_zero name).trans found, top⟩
  | case2 steps name definition parent parentType missing =>
    have up := (parent?_of_known found).trans parentType
    exact Or.inr (Or.inl ⟨name, parent, rfl, 0, rfl, up, Entries.get?_eq_none_iff.mp missing⟩)
  | case3 name definition parent parentType parentDefinition parentFound =>
    refine Or.inr (Or.inr ⟨rfl, ?_⟩)
    rw [ancestorType?_succ ((parent?_of_known found).trans parentType), ancestorType?_zero]
    exact Option.isSome_iff_exists.mpr ⟨parentDefinition, parentFound⟩
  | case4 name definition parent parentType parentDefinition parentFound steps
      inductionHypothesis =>
    have up := (parent?_of_known found).trans parentType
    rcases inductionHypothesis parentFound with
      ⟨ok, proper⟩ | ⟨link, last, error, breaks⟩ | ⟨error, longer⟩
    · exact Or.inl ⟨ok, proper.of_parent up⟩
    · exact Or.inr (Or.inl ⟨link, last, error, breaks.of_parent up⟩)
    · exact Or.inr (Or.inr ⟨error, by rwa [ancestorType?_succ up]⟩)

end TagTable

end DocComments
