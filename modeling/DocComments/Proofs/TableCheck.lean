/-
This file proves which maps of tag types a table is built from, and what is said of the others.

A map is accepted if its aliases are clear, every parent is in it, every chain of parents ends,
and every property is defined on every chain. The three checks run over the whole map one after
the other, so a fault is only reported when no earlier check finds one, and within a check the
first faulty type decides. The count of steps in the second check is right in both directions:
a chain that ends is never refused for its length, and a chain that goes round is refused
wherever on it, or before it, the walk starts.

None of the four conditions speaks of the order of the types, so neither does acceptance.
-/

import DocComments.Proofs.ParentChain
import DocComments.TagType.Builtin
import DocComments.TagType.Data

namespace DocComments

/-! ### Checks over a list -/

/-- A check over a list passes everywhere, or the first item that it refuses decides. -/
theorem forM_cases {Item Error : Type} (check : Item → Except Error Unit) (items : List Item) :
    (items.forM check = .ok () ∧ ∀ item ∈ items, check item = .ok ()) ∨
    (∃ before item after error, items = before ++ item :: after ∧
      (∀ earlier ∈ before, check earlier = .ok ()) ∧ check item = .error error ∧
      items.forM check = .error error) := by
  induction items with
  | nil => exact Or.inl ⟨rfl, fun _ member => absurd member List.not_mem_nil⟩
  | cons head items inductionHypothesis =>
    cases first : check head with
    | error error =>
      refine Or.inr ⟨[], head, items, error, rfl, ?_, first, ?_⟩
      · exact fun _ member => absurd member List.not_mem_nil
      · rw [List.forM_eq_forM, List.forM_cons, first]
        rfl
    | ok =>
      have tail : (head :: items).forM check = items.forM check := by
        rw [List.forM_eq_forM, List.forM_cons, first]
        rfl
      rw [tail]
      rcases inductionHypothesis with ⟨passed, each⟩ | ⟨before, item, after, error, rfl, rest⟩
      · exact Or.inl ⟨passed, List.forall_mem_cons.mpr ⟨first, each⟩⟩
      · obtain ⟨earlier, refused, failed⟩ := rest
        exact Or.inr ⟨head :: before, item, after, error, rfl,
          List.forall_mem_cons.mpr ⟨first, earlier⟩, refused, failed⟩

theorem forall_of_forM_eq_ok {Item Error : Type} {check : Item → Except Error Unit}
    {items : List Item} (passed : items.forM check = .ok ()) :
    ∀ item ∈ items, check item = .ok () := by
  rcases forM_cases check items with ⟨-, each⟩ | ⟨_, _, _, _, _, _, _, failed⟩
  · exact each
  · rw [passed] at failed
    cases failed

theorem exists_of_mem_mapM {Item Value : Type} {read : Item → Option Value} {items : List Item}
    {values : List Value} (readAll : items.mapM read = some values) :
    ∀ value ∈ values, ∃ item ∈ items, read item = some value := by
  induction items generalizing values with
  | nil =>
    obtain rfl : [] = values := by simpa using readAll
    exact fun _ member => absurd member List.not_mem_nil
  | cons item items inductionHypothesis =>
    rw [List.mapM_cons] at readAll
    obtain ⟨first, readFirst, readAll⟩ := Option.bind_eq_some_iff.mp readAll
    obtain ⟨rest, readRest, readAll⟩ := Option.bind_eq_some_iff.mp readAll
    obtain rfl := Option.some.inj readAll
    rintro value member
    rcases List.mem_cons.mp member with rfl | inRest
    · exact ⟨item, List.mem_cons_self, readFirst⟩
    · obtain ⟨source, inItems, readSource⟩ := inductionHypothesis readRest value inRest
      exact ⟨source, List.mem_cons_of_mem _ inItems, readSource⟩

theorem TagProperty.mem_all (property : TagProperty) : property ∈ TagProperty.all := by
  cases property <;> decide

/-! ### The four conditions -/

namespace TagTable

open Lineage

/-- A map of tag types has every name once, and no type of it has an alias twice. -/
structure ProperTypes (types : Entries String TagType) : Prop where
  names : (Entries.keys types).Nodup
  aliases : ∀ entry ∈ types, entry.2.aliases.Nodup

/-- A type of the map goes by this alias. -/
def GoesBy (types : Entries String TagType) (typeName name : String) : Prop :=
  ∃ definition, Entries.get? types typeName = some definition ∧ name ∈ definition.aliases

/-- No alias is the name of a type, and no two types have an alias in common. -/
structure AliasesClear (types : Entries String TagType) : Prop where
  notTypes : ∀ typeName name, GoesBy types typeName name → name ∉ Entries.keys types
  notShared : ∀ first second name, GoesBy types first name → GoesBy types second name →
    first = second

/-- Every parent is a type of the map. -/
def ParentsKnown (types : Entries String TagType) : Prop :=
  ∀ name parent, parent? types name = some parent → parent ∈ Entries.keys types

/-- Following parents comes to an end from every type. -/
def ChainsEnd (types : Entries String TagType) : Prop :=
  ∀ name ∈ Entries.keys types, Ends types name

/-- Some type on the chain defines the property. -/
def Defined (types : Entries String TagType) (name : String) (property : TagProperty) : Prop :=
  ∃ steps definition, ancestorType? types steps name = some definition ∧
    (definition.local? property).isSome

/-- Every property is defined on the chain of every type. -/
def PropertiesDefined (types : Entries String TagType) : Prop :=
  ∀ name ∈ Entries.keys types, ∀ property, Defined types name property

theorem not_defined_of_lacking {types : Entries String TagType} {name : String}
    {property : TagProperty} (lacking : Lacking types name (·.local? property)) :
    ¬ Defined types name property := by
  rintro ⟨steps, definition, found, defined⟩
  have undefined : definition.local? property = none := lacking steps definition found
  rw [undefined] at defined
  cases defined

theorem defined_of_nearest {types : Entries String TagType} {name : String}
    {property : TagProperty} {value : PropertyValue}
    (nearest : Nearest types name (·.local? property) value) : Defined types name property := by
  obtain ⟨steps, definition, found, defined, -⟩ := nearest
  exact ⟨steps, definition, found, Option.isSome_iff_exists.mpr ⟨value, defined⟩⟩

/-! ### Chains -/

/-- What is said of a chain that does not end properly. -/
inductive ChainFault (types : Entries String TagType) (name : String) : SettingsError → Prop where
  | unknownParent {link parent : String} (breaks : Breaks types name link parent) :
      ChainFault types name (.unknownParent link parent)
  | cyclic (endless : ∀ steps, (ancestor? types steps name).isSome) :
      ChainFault types name (.cyclicParent name)

/-- Counting to the size of the map tells the chains that end properly from all others. -/
theorem walkUp_length_cases {table : TagTable} {name : String} {definition : TagType}
    (found : table.get? name = some definition) :
    (table.walkUp name table.types.length name definition = .ok () ∧
      EndsProperly table.types name) ∨
    (∃ error, table.walkUp name table.types.length name definition = .error error ∧
      ChainFault table.types name error ∧ ¬ EndsProperly table.types name) := by
  rcases walkUp_cases found name table.types.length with
    passed | ⟨link, parent, failed, breaks⟩ | ⟨failed, longer⟩
  · exact Or.inl passed
  · exact Or.inr ⟨_, failed, .unknownParent breaks, breaks.not_endsProperly⟩
  · have endless : ¬ Ends table.types name := by
      intro ends
      rw [ancestorType?_eq_none_of_length_le ends (Nat.le_succ _)] at longer
      cases longer
    refine Or.inr ⟨_, failed, .cyclic fun steps => ?_, fun proper => endless proper.ends⟩
    by_contra ended
    exact endless ⟨steps, Option.not_isSome_iff_eq_none.mp ended⟩

/-- All chains end properly if and only if all parents are known and all chains end. -/
theorem forall_endsProperly_iff {types : Entries String TagType} :
    (∀ name ∈ Entries.keys types, EndsProperly types name) ↔
      ParentsKnown types ∧ ChainsEnd types := by
  constructor
  · intro proper
    refine ⟨fun name parent up => ?_, fun name member => (proper name member).ends⟩
    by_contra unknown
    obtain ⟨definition, known, -⟩ := Option.bind_eq_some_iff.mp up
    have breaks : Breaks types name name parent := ⟨0, rfl, up, unknown⟩
    exact breaks.not_endsProperly (proper name (Entries.mem_keys_of_get? known))
  · rintro ⟨known, ends⟩ name member
    -- the last type is the one before the first step that leads nowhere
    obtain ⟨bound, ended⟩ := ends name member
    induction bound generalizing name with
    | zero => cases ended
    | succ bound inductionHypothesis =>
      cases up : parent? types name with
      | none =>
        obtain ⟨definition, found⟩ := Entries.exists_get?_of_mem_keys member
        refine ⟨0, definition, (ancestorType?_zero name).trans found, ?_⟩
        rwa [parent?, found, Option.bind_some] at up
      | some parent =>
        rw [ancestor?, up, Option.bind_some] at ended
        exact (inductionHypothesis parent (known name parent up) ended).of_parent up

/-! ### Aliases -/

/-- The aliases of all types with the types they stand for, in order. -/
def aliasPairs (types : Entries String TagType) : Entries String String :=
  types.flatMap fun entry => entry.2.aliases.map fun name => (name, entry.1)

theorem foldlM_aliases (types entries : Entries String TagType)
    (aliases : Entries String String) :
    entries.foldlM (fun aliases entry =>
        entry.2.aliases.foldlM (addAlias types entry.1) aliases) aliases =
      (aliasPairs entries).foldlM (fun aliases pair =>
        addAlias types pair.2 aliases pair.1) aliases := by
  induction entries generalizing aliases with
  | nil => rfl
  | cons entry entries inductionHypothesis =>
    rw [List.foldlM_cons, aliasPairs, List.flatMap_cons, List.foldlM_append, List.foldlM_map]
    exact congrArg _ (funext inductionHypothesis)

/-- Two uses of one alias, or an alias that is the name of a type. -/
inductive Clash (types : Entries String TagType) (pairs : Entries String String) :
    String → String → String → Prop where
  | shared {name typeName existing : String} {before after : Entries String String}
      (later : pairs = before ++ (name, typeName) :: after)
      (earlier : (name, existing) ∈ before) :
      Clash types pairs name typeName existing
  | type {name typeName : String} (used : (name, typeName) ∈ pairs)
      (isType : name ∈ Entries.keys types) : Clash types pairs name typeName name

/-- Adding aliases goes through if they are new, different and no names of types; else an alias
is reported that clashes. -/
theorem addAliases_cases (types : Entries String TagType) (aliases pairs : Entries String String)
    (distinct : (Entries.keys aliases).Nodup) :
    ((Entries.keys (aliases ++ pairs)).Nodup ∧ (∀ pair ∈ pairs, pair.1 ∉ Entries.keys types) ∧
      pairs.foldlM (fun aliases pair => addAlias types pair.2 aliases pair.1) aliases =
        .ok (aliases ++ pairs)) ∨
    (¬ ((Entries.keys (aliases ++ pairs)).Nodup ∧
        ∀ pair ∈ pairs, pair.1 ∉ Entries.keys types) ∧
      ∃ name typeName existing, Clash types (aliases ++ pairs) name typeName existing ∧
        pairs.foldlM (fun aliases pair => addAlias types pair.2 aliases pair.1) aliases =
          .error (.duplicateAlias name typeName existing)) := by
  induction pairs generalizing aliases with
  | nil =>
    rw [List.append_nil]
    exact Or.inl ⟨distinct, fun _ member => absurd member List.not_mem_nil, rfl⟩
  | cons pair pairs inductionHypothesis =>
    obtain ⟨name, typeName⟩ := pair
    rw [List.foldlM_cons]
    cases existing : Entries.get? aliases name with
    | some existingType =>
      refine Or.inr ⟨?_, name, typeName, existingType,
        .shared rfl (Entries.mem_of_get? existing), ?_⟩
      · rintro ⟨allDistinct, -⟩
        rw [Entries.keys, List.map_append] at allDistinct
        exact (List.nodup_append.mp allDistinct).2.2 name (Entries.mem_keys_of_get? existing) name
          List.mem_cons_self rfl
      · rw [addAlias, existing]
        rfl
    | none =>
      cases isType : Entries.get? types name with
      | some definition =>
        have member := Entries.mem_keys_of_get? isType
        refine Or.inr ⟨fun fine => fine.2 _ List.mem_cons_self member, name, typeName, name,
          .type (List.mem_append_right _ List.mem_cons_self) member, ?_⟩
        rw [addAlias, existing, isType]
        rfl
      | none =>
        have added :
            addAlias types typeName aliases name = .ok (aliases ++ [(name, typeName)]) := by
          rw [addAlias, existing, isType]
        have distinctAdded : (Entries.keys (aliases ++ [(name, typeName)])).Nodup := by
          rw [Entries.keys, List.map_append, List.map_singleton, ← List.concat_eq_append]
          exact distinct.concat (Entries.get?_eq_none_iff.mp existing)
        have rest := inductionHypothesis (aliases ++ [(name, typeName)]) distinctAdded
        rw [List.append_assoc, List.singleton_append] at rest
        rw [added]
        simp only [List.forall_mem_cons]
        have fresh : name ∉ Entries.keys types := Entries.get?_eq_none_iff.mp isType
        rcases rest with ⟨allDistinct, noTypes, passed⟩ | ⟨faulty, failed⟩
        · exact Or.inl ⟨allDistinct, ⟨fresh, noTypes⟩, passed⟩
        · exact Or.inr ⟨fun fine => faulty ⟨fine.1, fine.2.2⟩, failed⟩

theorem goesBy_iff_mem_aliasPairs {types : Entries String TagType} (proper : ProperTypes types)
    {typeName name : String} :
    GoesBy types typeName name ↔ (name, typeName) ∈ aliasPairs types := by
  simp only [aliasPairs, List.mem_flatMap, List.mem_map, Prod.mk.injEq, Prod.exists]
  constructor
  · rintro ⟨definition, found, member⟩
    exact ⟨typeName, definition, Entries.mem_of_get? found, name, member, rfl, rfl⟩
  · rintro ⟨_, definition, member, _, listed, rfl, rfl⟩
    exact ⟨definition, Entries.get?_of_mem proper.names member, listed⟩

theorem nodup_aliasPairs {types : Entries String TagType} (proper : ProperTypes types) :
    (aliasPairs types).Nodup := by
  rw [aliasPairs, List.nodup_flatMap]
  constructor
  · intro entry member
    exact (proper.aliases entry member).map fun _ _ same => (Prod.mk.inj same).1
  · have namesDiffer : types.Pairwise fun first second => first.1 ≠ second.1 :=
      List.pairwise_map.mp proper.names
    refine namesDiffer.imp fun {first second} different => ?_
    intro pair inFirst inSecond
    obtain ⟨name, -, rfl⟩ := List.mem_map.mp inFirst
    obtain ⟨other, -, same⟩ := List.mem_map.mp inSecond
    exact different (Prod.mk.inj same).2.symm

/-- The aliases are clear if and only if they are different from each other and from all types.
-/
theorem aliasesClear_iff {types : Entries String TagType} (proper : ProperTypes types) :
    AliasesClear types ↔ (Entries.keys (aliasPairs types)).Nodup ∧
      ∀ pair ∈ aliasPairs types, pair.1 ∉ Entries.keys types := by
  constructor
  · intro clear
    refine ⟨(nodup_aliasPairs proper).map_on ?_, ?_⟩
    · rintro ⟨name, first⟩ firstMember ⟨other, second⟩ secondMember rfl
      rw [clear.notShared first second name ((goesBy_iff_mem_aliasPairs proper).mpr firstMember)
        ((goesBy_iff_mem_aliasPairs proper).mpr secondMember)]
    · rintro ⟨name, typeName⟩ member
      exact clear.notTypes typeName name ((goesBy_iff_mem_aliasPairs proper).mpr member)
  · rintro ⟨distinct, notTypes⟩
    refine ⟨fun typeName name goes => ?_, fun first second name firstGoes secondGoes => ?_⟩
    · exact notTypes _ ((goesBy_iff_mem_aliasPairs proper).mp goes)
    · have same := List.inj_on_of_nodup_map distinct
        ((goesBy_iff_mem_aliasPairs proper).mp firstGoes)
        ((goesBy_iff_mem_aliasPairs proper).mp secondGoes) rfl
      exact (Prod.mk.inj same).2

/-- An alias of a type that is the name of a type or an alias of another one. -/
def AliasFault (types : Entries String TagType) (name typeName existing : String) : Prop :=
  GoesBy types typeName name ∧
    (existing = name ∧ name ∈ Entries.keys types ∨
      existing ≠ typeName ∧ GoesBy types existing name)

theorem aliasFault_of_clash {types : Entries String TagType} (proper : ProperTypes types)
    {name typeName existing : String}
    (clash : Clash types (aliasPairs types) name typeName existing) :
    AliasFault types name typeName existing := by
  cases clash with
  | shared later earlier =>
    refine ⟨(goesBy_iff_mem_aliasPairs proper).mpr (by simp [later]), Or.inr ⟨?_, ?_⟩⟩
    · rintro rfl
      have distinct := nodup_aliasPairs proper
      rw [later] at distinct
      exact (List.nodup_append.mp distinct).2.2 _ earlier _ List.mem_cons_self rfl
    · exact (goesBy_iff_mem_aliasPairs proper).mpr (by simp [later, earlier])
  | type used isType =>
    exact ⟨(goesBy_iff_mem_aliasPairs proper).mpr used, Or.inl ⟨rfl, isType⟩⟩

theorem indexAliases_cases {types : Entries String TagType} (proper : ProperTypes types) :
    (AliasesClear types ∧ indexAliases types = .ok (aliasPairs types)) ∨
    (¬ AliasesClear types ∧ ∃ name typeName existing, AliasFault types name typeName existing ∧
      indexAliases types = .error (.duplicateAlias name typeName existing)) := by
  rw [aliasesClear_iff proper, indexAliases, foldlM_aliases]
  rcases addAliases_cases types [] (aliasPairs types) List.nodup_nil with
    ⟨distinct, notTypes, passed⟩ | ⟨faulty, name, typeName, existing, clash, failed⟩
  · exact Or.inl ⟨⟨distinct, notTypes⟩, passed⟩
  · exact Or.inr ⟨faulty, name, typeName, existing, aliasFault_of_clash proper clash, failed⟩

/-! ### Building -/

/-- The error is that of the first type, in the order of the map, whose chain does not end
properly. -/
def FirstChainFault (types : Entries String TagType) (error : SettingsError) : Prop :=
  ∃ before name definition after, types = before ++ (name, definition) :: after ∧
    (∀ entry ∈ before, EndsProperly types entry.1) ∧ ¬ EndsProperly types name ∧
    ChainFault types name error

/-- The type is the first, in the order of the map, on whose chain a property is not defined, and
the property is the first of these. -/
def FirstMissing (types : Entries String TagType) (name : String) (property : TagProperty) :
    Prop :=
  (∃ before definition after, types = before ++ (name, definition) :: after ∧
    ∀ entry ∈ before, ∀ other, Defined types entry.1 other) ∧
  (∃ before after, TagProperty.all = before ++ property :: after ∧
    ∀ other ∈ before, Defined types name other) ∧
  ¬ Defined types name property

theorem endsProperly_of_walkUp {table : TagTable} {name : String} {definition : TagType}
    (found : table.get? name = some definition)
    (passed : table.walkUp name table.types.length name definition = .ok ()) :
    EndsProperly table.types name := by
  rcases walkUp_length_cases found with ⟨-, proper⟩ | ⟨error, failed, -⟩
  · exact proper
  · rw [passed] at failed
    cases failed

theorem endsProperly_of_checkChains {table : TagTable} (passed : table.checkChains = .ok ()) :
    ∀ name ∈ Entries.keys table.types, EndsProperly table.types name := by
  intro name member
  obtain ⟨definition, found⟩ := Entries.exists_get?_of_mem_keys member
  exact endsProperly_of_walkUp found
    (forall_of_forM_eq_ok passed (name, definition) (Entries.mem_of_get? found))

theorem checkChains_cases (table : TagTable) (distinct : (Entries.keys table.types).Nodup) :
    (table.checkChains = .ok () ∧ ∀ name ∈ Entries.keys table.types,
      EndsProperly table.types name) ∨
    (∃ error, table.checkChains = .error error ∧ FirstChainFault table.types error) := by
  rcases forM_cases (fun entry => table.walkUp entry.1 table.types.length entry.1 entry.2)
      table.types with
    ⟨passed, -⟩ | ⟨before, ⟨name, definition⟩, after, error, split, earlier, refused, failed⟩
  · exact Or.inl ⟨passed, endsProperly_of_checkChains passed⟩
  · have known : ∀ entry ∈ table.types, table.get? entry.1 = some entry.2 :=
      fun entry member => Entries.get?_of_mem distinct member
    refine Or.inr ⟨error, failed, before, name, definition, after, split, ?_, ?_⟩
    · intro entry member
      refine endsProperly_of_walkUp (known entry ?_) (earlier entry member)
      rw [split]
      exact List.mem_append_left _ member
    · have found := known (name, definition) (by simp [split])
      rcases walkUp_length_cases found with ⟨passed, -⟩ | ⟨own, ownRefused, fault, improper⟩
      · rw [passed] at refused
        cases refused
      · rw [ownRefused] at refused
        injection refused with same
        exact ⟨improper, same ▸ fault⟩

/-- The properties of a type are all defined on its chain, or the first that is not decides. -/
theorem resolveAll_cases {table : TagTable} {name : String} {definition : TagType}
    (found : table.get? name = some definition) (ends : Ends table.types name) :
    ((TagProperty.all.forM fun property => (table.resolve name property).map fun _ => ()) =
        .ok () ∧ ∀ property, Defined table.types name property) ∨
    (∃ before property after, TagProperty.all = before ++ property :: after ∧
      (∀ other ∈ before, Defined table.types name other) ∧
      ¬ Defined table.types name property ∧
      (TagProperty.all.forM fun property => (table.resolve name property).map fun _ => ()) =
        .error (.missingProperty name property)) := by
  have defined : ∀ property, (table.resolve name property).map (fun _ => ()) = .ok () →
      Defined table.types name property := by
    intro property passed
    rcases resolve_cases found ends property with ⟨value, -, nearest⟩ | ⟨missing, -⟩
    · exact defined_of_nearest nearest
    · rw [missing] at passed
      cases passed
  rcases forM_cases (fun property => (table.resolve name property).map fun _ => ())
      TagProperty.all with
    ⟨passed, each⟩ | ⟨before, property, after, error, split, earlier, refused, failed⟩
  · exact Or.inl ⟨passed, fun property => defined property (each property property.mem_all)⟩
  · refine Or.inr ⟨before, property, after, split,
      fun other member => defined other (earlier other member), ?_⟩
    rcases resolve_cases found ends property with ⟨value, resolved, -⟩ | ⟨missing, lacking⟩
    · rw [resolved] at refused
      cases refused
    · rw [missing] at refused
      injection refused with same
      exact ⟨not_defined_of_lacking lacking, same ▸ failed⟩

/-- The check of one type passes only if all its properties are defined. -/
theorem defined_of_resolveAll {table : TagTable} {name : String} {definition : TagType}
    (found : table.get? name = some definition) (ends : Ends table.types name)
    (passed : (TagProperty.all.forM fun property =>
      (table.resolve name property).map fun _ => ()) = .ok ()) :
    ∀ property, Defined table.types name property := by
  rcases resolveAll_cases found ends with ⟨-, defined⟩ | ⟨_, _, _, _, _, _, failed⟩
  · exact defined
  · rw [passed] at failed
    cases failed

theorem defined_of_checkProperties {table : TagTable} (ends : ChainsEnd table.types)
    (passed : table.checkProperties = .ok ()) : PropertiesDefined table.types := by
  intro name member
  obtain ⟨definition, found⟩ := Entries.exists_get?_of_mem_keys member
  exact defined_of_resolveAll found (ends name member)
    (forall_of_forM_eq_ok passed (name, definition) (Entries.mem_of_get? found))

theorem checkProperties_cases (table : TagTable)
    (distinct : (Entries.keys table.types).Nodup) (ends : ChainsEnd table.types) :
    (table.checkProperties = .ok () ∧ PropertiesDefined table.types) ∨
    (∃ name property, table.checkProperties = .error (.missingProperty name property) ∧
      name ∈ Entries.keys table.types ∧ FirstMissing table.types name property) := by
  have known : ∀ entry ∈ table.types, table.get? entry.1 = some entry.2 :=
    fun entry member => Entries.get?_of_mem distinct member
  have ending : ∀ entry ∈ table.types, Ends table.types entry.1 :=
    fun entry member => ends entry.1 (Entries.mem_keys_of_mem member)
  rcases forM_cases (fun entry => TagProperty.all.forM fun property =>
      (table.resolve entry.1 property).map fun _ => ()) table.types with
    ⟨passed, -⟩ | ⟨before, ⟨name, definition⟩, after, error, split, earlier, refused, failed⟩
  · exact Or.inl ⟨passed, defined_of_checkProperties ends passed⟩
  · have member : (name, definition) ∈ table.types := by simp [split]
    rcases resolveAll_cases (known _ member) (ending _ member) with
      ⟨passed, -⟩ | ⟨checked, property, unchecked, listed, fine, undefined, missing⟩
    · rw [passed] at refused
      cases refused
    · rw [missing] at refused
      injection refused with same
      refine Or.inr ⟨name, property, same ▸ failed, Entries.mem_keys_of_mem member,
        ⟨before, definition, after, split, fun entry entryMember => ?_⟩,
        ⟨checked, unchecked, listed, fine⟩, undefined⟩
      have inTable : entry ∈ table.types := by
        rw [split]
        exact List.mem_append_left _ entryMember
      exact defined_of_resolveAll (known _ inTable) (ending _ inTable) (earlier entry entryMember)

theorem build_of_indexed {types : Entries String TagType} {aliases : Entries String String}
    (indexed : indexAliases types = .ok aliases) :
    build types = (checkChains ⟨types, aliases⟩ >>= fun _ =>
      checkProperties ⟨types, aliases⟩ >>= fun _ => .ok ⟨types, aliases⟩) := by
  rw [build, indexed]
  rfl

/-- The four outcomes of building, each with the conditions under which it arises. -/
theorem build_cases {types : Entries String TagType} (proper : ProperTypes types) :
    ((AliasesClear types ∧ ParentsKnown types ∧ ChainsEnd types ∧ PropertiesDefined types) ∧
      build types = .ok ⟨types, aliasPairs types⟩) ∨
    (¬ AliasesClear types ∧ ∃ name typeName existing, AliasFault types name typeName existing ∧
      build types = .error (.duplicateAlias name typeName existing)) ∨
    (AliasesClear types ∧ ¬ (ParentsKnown types ∧ ChainsEnd types) ∧
      ∃ error, FirstChainFault types error ∧ build types = .error error) ∨
    (AliasesClear types ∧ (ParentsKnown types ∧ ChainsEnd types) ∧ ¬ PropertiesDefined types ∧
      ∃ name property, FirstMissing types name property ∧
        build types = .error (.missingProperty name property)) := by
  rcases indexAliases_cases proper with
    ⟨clear, indexed⟩ | ⟨unclear, name, typeName, existing, fault, failed⟩
  · rcases checkChains_cases ⟨types, aliasPairs types⟩ proper.names with
      ⟨chainsPassed, ending⟩ | ⟨error, failed, fault⟩
    · have chains := forall_endsProperly_iff.mp ending
      rcases checkProperties_cases ⟨types, aliasPairs types⟩ proper.names chains.2 with
        ⟨passed, defined⟩ | ⟨name, property, failed, member, missing⟩
      · refine Or.inl ⟨⟨clear, chains.1, chains.2, defined⟩, ?_⟩
        rw [build_of_indexed indexed, chainsPassed, passed]
        rfl
      · refine Or.inr (Or.inr (Or.inr ⟨clear, chains, ?_, name, property, missing, ?_⟩))
        · exact fun defined => missing.2.2 (defined name member property)
        · rw [build_of_indexed indexed, chainsPassed, failed]
          rfl
    · refine Or.inr (Or.inr (Or.inl ⟨clear, ?_, error, fault, ?_⟩))
      · obtain ⟨before, name, definition, after, split, -, improper, -⟩ := fault
        have member : (name, definition) ∈ types := by
          rw [show types = before ++ (name, definition) :: after from split]
          exact List.mem_append_right _ List.mem_cons_self
        intro chains
        exact improper (forall_endsProperly_iff.mpr chains name (Entries.mem_keys_of_mem member))
      · rw [build_of_indexed indexed, failed]
        rfl
  · refine Or.inr (Or.inl ⟨unclear, name, typeName, existing, fault, ?_⟩)
    rw [build, failed]
    rfl

theorem exists_build_eq_ok_iff {types : Entries String TagType} (proper : ProperTypes types) :
    (∃ table, build types = .ok table) ↔
      AliasesClear types ∧ ParentsKnown types ∧ ChainsEnd types ∧ PropertiesDefined types := by
  have refused : ∀ {error}, build types = .error error → ¬ ∃ table, build types = .ok table := by
    rintro error failed ⟨table, built⟩
    rw [failed] at built
    cases built
  rcases build_cases proper with
    ⟨fine, built⟩ | ⟨unclear, _, _, _, _, failed⟩ | ⟨_, broken, _, _, failed⟩ |
      ⟨_, _, undefined, _, _, _, failed⟩
  · exact iff_of_true ⟨_, built⟩ fine
  · exact iff_of_false (refused failed) fun fine => unclear fine.1
  · exact iff_of_false (refused failed) fun fine => broken ⟨fine.2.1, fine.2.2.1⟩
  · exact iff_of_false (refused failed) fun fine => undefined fine.2.2.2

/-! ### Order -/

theorem ProperTypes.of_perm {types other : Entries String TagType} (proper : ProperTypes types)
    (reordered : types.Perm other) : ProperTypes other :=
  ⟨(reordered.map _).nodup_iff.mp proper.names,
    fun entry member => proper.aliases entry (reordered.mem_iff.mpr member)⟩

theorem ancestor?_eq_of_get?_eq {types other : Entries String TagType}
    (same : ∀ name, Entries.get? types name = Entries.get? other name) (steps : Nat)
    (name : String) : ancestor? types steps name = ancestor? other steps name := by
  induction steps generalizing name with
  | zero => rfl
  | succ steps inductionHypothesis =>
    rw [ancestor?, ancestor?, parent?, parent?, same]
    exact congrArg _ (funext inductionHypothesis)

/-- The conditions for acceptance depend on the answers of the map only. -/
theorem conditions_iff_of_get?_eq {types other : Entries String TagType}
    (same : ∀ name, Entries.get? types name = Entries.get? other name) :
    (AliasesClear types ∧ ParentsKnown types ∧ ChainsEnd types ∧ PropertiesDefined types) ↔
      AliasesClear other ∧ ParentsKnown other ∧ ChainsEnd other ∧ PropertiesDefined other := by
  have sameKeys : ∀ name, name ∈ Entries.keys types ↔ name ∈ Entries.keys other := by
    intro name
    rw [← Entries.get?_isSome_iff, ← Entries.get?_isSome_iff, same]
  have sameAliases : ∀ typeName name,
      GoesBy types typeName name ↔ GoesBy other typeName name := by
    intro typeName name
    rw [GoesBy, GoesBy, same]
  have sameAncestors := ancestor?_eq_of_get?_eq same
  have clear : AliasesClear types ↔ AliasesClear other := by
    constructor
    · rintro ⟨notTypes, notShared⟩
      simp only [sameAliases, sameKeys] at notTypes notShared
      exact ⟨notTypes, notShared⟩
    · rintro ⟨notTypes, notShared⟩
      simp only [← sameAliases, ← sameKeys] at notTypes notShared
      exact ⟨notTypes, notShared⟩
  rw [clear]
  simp only [ParentsKnown, ChainsEnd, PropertiesDefined, Defined, Ends, ancestorType?, parent?,
    sameKeys, sameAncestors, same]

/-! ### Maps from settings files -/

theorem nodup_addAlias {aliases : List String} (distinct : aliases.Nodup) (name : String) :
    (TagType.addAlias aliases name).Nodup := by
  rw [TagType.addAlias]
  split
  · exact distinct
  · rename_i absent
    rw [← List.concat_eq_append]
    exact distinct.concat (by simpa using absent)

theorem nodup_aliases_of_ofDatum? {datum : Datum} {definition : TagType}
    (read : TagType.ofDatum? datum = some definition) : definition.aliases.Nodup := by
  rw [TagType.ofDatum?] at read
  iterate 3 obtain ⟨_, -, read⟩ := Option.bind_eq_some_iff.mp read
  obtain ⟨aliases, -, read⟩ := Option.bind_eq_some_iff.mp read
  iterate 8 obtain ⟨_, -, read⟩ := Option.bind_eq_some_iff.mp read
  obtain rfl := Option.some.inj read
  have run : ∀ start : List String, start.Nodup →
      (aliases.foldl TagType.addAlias start).Nodup := by
    clear * -
    induction aliases with
    | nil => exact fun _ distinct => distinct
    | cons name aliases inductionHypothesis =>
      exact fun start distinct => inductionHypothesis _ (nodup_addAlias distinct name)
  exact run [] List.nodup_nil

/-- A map that is read from a settings file names every type once and lists no alias of a type
twice, whatever the file repeats. -/
theorem properTypes_of_typesOfDatum? {datum : Datum} {types : Entries String TagType}
    (read : typesOfDatum? datum = some types) : ProperTypes types := by
  rw [typesOfDatum?] at read
  obtain ⟨fields, -, read⟩ := Option.bind_eq_some_iff.mp read
  obtain ⟨pairs, readAll, read⟩ := Option.bind_eq_some_iff.mp read
  obtain rfl := Option.some.inj read
  refine ⟨Entries.nodup_keys_ofList pairs, fun entry member => ?_⟩
  obtain ⟨field, -, readField⟩ :=
    exists_of_mem_mapM readAll entry (Entries.mem_of_mem_ofList member)
  obtain ⟨definition, readDefinition, rfl⟩ := Option.map_eq_some_iff.mp readField
  exact nodup_aliases_of_ofDatum? readDefinition

/-! ### The whole check -/

/-- A map of tag types is accepted exactly if its aliases are clear, its parents are known, its
chains end and its properties are defined. An unclear alias is reported before anything else, a
faulty chain before a missing property, and in both of these the first type in the order of the
map decides. Acceptance does not depend on the order. -/
theorem build_accepts_exactly {types : Entries String TagType} (proper : ProperTypes types) :
    ((∃ table, build types = .ok table) ↔
      AliasesClear types ∧ ParentsKnown types ∧ ChainsEnd types ∧ PropertiesDefined types) ∧
    (¬ AliasesClear types → ∃ name typeName existing, AliasFault types name typeName existing ∧
      build types = .error (.duplicateAlias name typeName existing)) ∧
    (AliasesClear types → ¬ (ParentsKnown types ∧ ChainsEnd types) →
      ∃ error, FirstChainFault types error ∧ build types = .error error) ∧
    (AliasesClear types → ParentsKnown types ∧ ChainsEnd types → ¬ PropertiesDefined types →
      ∃ name property, FirstMissing types name property ∧
        build types = .error (.missingProperty name property)) ∧
    (∀ other, types.Perm other →
      ((∃ table, build types = .ok table) ↔ ∃ table, build other = .ok table)) := by
  refine ⟨exists_build_eq_ok_iff proper, ?_, ?_, ?_, fun other reordered => ?_⟩
  · intro unclear
    rcases build_cases proper with ⟨fine, -⟩ | ⟨-, fault⟩ | ⟨clear, -⟩ | ⟨clear, -⟩
    · exact absurd fine.1 unclear
    · exact fault
    · exact absurd clear unclear
    · exact absurd clear unclear
  · intro clear broken
    rcases build_cases proper with ⟨fine, -⟩ | ⟨unclear, -⟩ | ⟨-, -, fault⟩ | ⟨-, chains, -⟩
    · exact absurd ⟨fine.2.1, fine.2.2.1⟩ broken
    · exact absurd clear unclear
    · exact fault
    · exact absurd chains broken
  · intro clear chains undefined
    rcases build_cases proper with ⟨fine, -⟩ | ⟨unclear, -⟩ | ⟨-, broken, -⟩ | ⟨-, -, -, fault⟩
    · exact absurd fine.2.2.2 undefined
    · exact absurd clear unclear
    · exact absurd chains broken
    · exact fault
  · rw [exists_build_eq_ok_iff proper, exists_build_eq_ok_iff (proper.of_perm reordered)]
    exact conditions_iff_of_get?_eq (Entries.get?_eq_of_perm proper.names reordered)

/-- The map of the built-in types is one of those that are accepted. -/
theorem build_accepts_exactly_builtinTypes :
    ProperTypes builtinTypes ∧ AliasesClear builtinTypes ∧ ParentsKnown builtinTypes ∧
      ChainsEnd builtinTypes ∧ PropertiesDefined builtinTypes := by
  have proper : ProperTypes builtinTypes := ⟨by decide, by decide⟩
  exact ⟨proper, (build_accepts_exactly proper).1.mp ⟨_, build_builtinTypes⟩⟩

/-- A chain that runs into a cycle without being on it is refused too. -/
example :
    build [("leaf", { TagType.bare with parentType := some "egg" }),
        ("egg", { TagType.bare with parentType := some "hen" }),
        ("hen", { TagType.bare with parentType := some "egg" })] =
      .error (.cyclicParent "leaf") := by
  rfl

end TagTable

end DocComments
