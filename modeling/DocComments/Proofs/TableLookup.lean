/-
This file proves what look-ups in a built table answer.

A table that was built has only chains that end properly and define every property. So a
look-up in it runs over the full chain of a type, although it stops after as many types as the
table has, and it answers with the nearest type that has a value. Null and empty lists are
values, for the defaults of types as for the attributes of elements: they end the search. What
can go wrong is that a type has to be consulted which the table does not have, and nothing
else.
-/

import DocComments.Element.Tree
import DocComments.Proofs.TableCheck

namespace DocComments

namespace TagTable

open Lineage

/-! ### What a built table satisfies -/

/-- A table is built of the types that were given, and passed both checks. -/
theorem checked_of_build {types : Entries String TagType} {table : TagTable}
    (built : build types = .ok table) :
    table.types = types ∧ table.checkChains = .ok () ∧ table.checkProperties = .ok () := by
  cases indexed : indexAliases types with
  | error error =>
    rw [build, indexed] at built
    cases built
  | ok aliases =>
    rw [build_of_indexed indexed] at built
    cases chains : checkChains ⟨types, aliases⟩ with
    | error error =>
      rw [chains] at built
      cases built
    | ok =>
      cases properties : checkProperties ⟨types, aliases⟩ with
      | error error =>
        rw [chains, properties] at built
        cases built
      | ok =>
        rw [chains, properties] at built
        obtain rfl : ⟨types, aliases⟩ = table := Except.ok.inj built
        exact ⟨rfl, chains, properties⟩

theorem endsProperly_of_build {types : Entries String TagType} {table : TagTable}
    (built : build types = .ok table) {name : String} (member : name ∈ Entries.keys table.types) :
    EndsProperly table.types name :=
  endsProperly_of_checkChains (checked_of_build built).2.1 name member

theorem defined_of_build {types : Entries String TagType} {table : TagTable}
    (built : build types = .ok table) : PropertiesDefined table.types :=
  defined_of_checkProperties (fun _ member => (endsProperly_of_build built member).ends)
    (checked_of_build built).2.2

/-! ### Properties -/

theorem resolve_of_build {types : Entries String TagType} {table : TagTable}
    (built : build types = .ok table) {name : String} (member : name ∈ Entries.keys table.types)
    (property : TagProperty) :
    ∃ value, table.resolve name property = .ok value ∧
      Nearest table.types name (·.local? property) value := by
  obtain ⟨definition, found⟩ := Entries.exists_get?_of_mem_keys member
  have ends := (endsProperly_of_build built member).ends
  rcases resolve_cases found ends property with answer | ⟨-, lacking⟩
  · exact answer
  · exact absurd (defined_of_build built name member property) (not_defined_of_lacking lacking)

theorem resolve_eq_error_iff {types : Entries String TagType} {table : TagTable}
    (built : build types = .ok table) (name : String) (property : TagProperty)
    (error : SettingsError) :
    table.resolve name property = .error error ↔
      name ∉ Entries.keys table.types ∧ error = .unknownType name := by
  by_cases member : name ∈ Entries.keys table.types
  · obtain ⟨value, resolved, -⟩ := resolve_of_build built member property
    rw [resolved]
    exact iff_of_false (by simp) fun wrong => wrong.1 member
  · rw [resolve_of_unknown (Entries.get?_eq_none_iff.mpr member), Except.error.injEq, eq_comm]
    exact (and_iff_right member).symm

/-! ### Defaults of attributes -/

theorem attributeDefault_eq_some_iff {types : Entries String TagType} {table : TagTable}
    (built : build types = .ok table) {name : String} (member : name ∈ Entries.keys table.types)
    (key : AttributeKey) (value : AttributeValue) :
    table.attributeDefault name key = .ok (some value) ↔
      Nearest table.types name (·.attributes.get? key) value := by
  obtain ⟨definition, found⟩ := Entries.exists_get?_of_mem_keys member
  rw [attributeDefault_of_known found, Except.ok.injEq]
  exact findSome?_ancestry_eq_some_iff found (endsProperly_of_build built member).ends

theorem attributeDefault_eq_none_iff {types : Entries String TagType} {table : TagTable}
    (built : build types = .ok table) {name : String} (member : name ∈ Entries.keys table.types)
    (key : AttributeKey) :
    table.attributeDefault name key = .ok none ↔
      Lacking table.types name (·.attributes.get? key) := by
  obtain ⟨definition, found⟩ := Entries.exists_get?_of_mem_keys member
  rw [attributeDefault_of_known found, Except.ok.injEq]
  exact findSome?_ancestry_eq_none_iff found (endsProperly_of_build built member).ends

theorem attributeDefault_eq_error_iff (table : TagTable) (name : String) (key : AttributeKey)
    (error : SettingsError) :
    table.attributeDefault name key = .error error ↔
      name ∉ Entries.keys table.types ∧ error = .unknownType name := by
  by_cases member : name ∈ Entries.keys table.types
  · obtain ⟨definition, found⟩ := Entries.exists_get?_of_mem_keys member
    rw [attributeDefault_of_known found]
    exact iff_of_false (by simp) fun wrong => wrong.1 member
  · rw [attributeDefault_of_unknown (Entries.get?_eq_none_iff.mpr member), Except.error.injEq,
      eq_comm]
    exact (and_iff_right member).symm

end TagTable

namespace Element

/-! ### Attributes of elements -/

theorem effectiveAttribute_of_own {element : Element} {key : AttributeKey}
    {value : AttributeValue} (own : element.attributes.get? key = some value) (table : TagTable) :
    element.effectiveAttribute table key = .ok (some value) := by
  rw [effectiveAttribute, own]

theorem effectiveAttribute_of_type {element : Element} {key : AttributeKey} {name : String}
    (notOwn : element.attributes.get? key = none) (declared : element.tagType? = some name)
    (table : TagTable) :
    element.effectiveAttribute table key = table.attributeDefault name key := by
  rw [effectiveAttribute, notOwn, declared]

theorem effectiveAttribute_of_placeholder {element : Element} {key : AttributeKey}
    (notOwn : element.attributes.get? key = none) (undeclared : element.tagType? = none)
    (table : TagTable) : element.effectiveAttribute table key = .ok none := by
  rw [effectiveAttribute, notOwn, undeclared]

theorem effectiveAttribute_eq_error_iff (element : Element) (table : TagTable)
    (key : AttributeKey) (error : SettingsError) :
    element.effectiveAttribute table key = .error error ↔
      element.attributes.get? key = none ∧ ∃ name, element.tagType? = some name ∧
        name ∉ Entries.keys table.types ∧ error = .unknownType name := by
  cases own : element.attributes.get? key with
  | some value =>
    rw [effectiveAttribute_of_own own]
    simp
  | none =>
    cases declared : element.tagType? with
    | none =>
      rw [effectiveAttribute_of_placeholder own declared]
      simp
    | some name =>
      rw [effectiveAttribute_of_type own declared, TagTable.attributeDefault_eq_error_iff]
      simp

end Element

/-! ### All look-ups together -/

/-- In a built table every property of every type resolves to the value of the nearest type on
its full chain which defines it. The default of an attribute is that of the nearest type on the
full chain which has the attribute, be it null, and there is none only if no type has it. An
element has its own value, be it null, or else the default of its type, and a placeholder has
none. A look-up fails exactly if it has to consult a type that the table does not have, and it
names that type. -/
theorem TagTable.lookups_follow_full_chain {types : Entries String TagType} {table : TagTable}
    (built : TagTable.build types = .ok table) :
    table.types = types ∧
    (∀ name ∈ Entries.keys types, ∀ property, ∃ value,
      table.resolve name property = .ok value ∧
        Lineage.Nearest types name (·.local? property) value) ∧
    (∀ name ∈ Entries.keys types, ∀ key,
      (∀ value, table.attributeDefault name key = .ok (some value) ↔
        Lineage.Nearest types name (·.attributes.get? key) value) ∧
      (table.attributeDefault name key = .ok none ↔
        Lineage.Lacking types name (·.attributes.get? key))) ∧
    (∀ (element : Element) key,
      (∀ value, element.attributes.get? key = some value →
        element.effectiveAttribute table key = .ok (some value)) ∧
      (∀ name, element.attributes.get? key = none → element.tagType? = some name →
        element.effectiveAttribute table key = table.attributeDefault name key) ∧
      (element.attributes.get? key = none → element.tagType? = none →
        element.effectiveAttribute table key = .ok none)) ∧
    (∀ name property error, table.resolve name property = .error error ↔
      name ∉ Entries.keys types ∧ error = .unknownType name) ∧
    (∀ name key error, table.attributeDefault name key = .error error ↔
      name ∉ Entries.keys types ∧ error = .unknownType name) ∧
    (∀ (element : Element) key error, element.effectiveAttribute table key = .error error ↔
      element.attributes.get? key = none ∧ ∃ name, element.tagType? = some name ∧
        name ∉ Entries.keys types ∧ error = .unknownType name) := by
  obtain ⟨rfl, -, -⟩ := TagTable.checked_of_build built
  refine ⟨rfl, fun name member => TagTable.resolve_of_build built member,
    fun name member key => ⟨TagTable.attributeDefault_eq_some_iff built member key,
      TagTable.attributeDefault_eq_none_iff built member key⟩,
    fun element key => ⟨?_, ?_, ?_⟩, TagTable.resolve_eq_error_iff built,
    table.attributeDefault_eq_error_iff,
    fun element => element.effectiveAttribute_eq_error_iff table⟩
  · exact fun value own => Element.effectiveAttribute_of_own own table
  · exact fun name notOwn declared => Element.effectiveAttribute_of_type notOwn declared table
  · exact fun notOwn undeclared =>
      Element.effectiveAttribute_of_placeholder notOwn undeclared table

/-- In the built-in table a type of values takes a property from the top of its chain. -/
theorem TagTable.lookups_follow_full_chain_builtin :
    TagTable.build builtinTypes = .ok TagTable.builtin ∧
      ∃ value, TagTable.builtin.resolve "bytestring" .separate = .ok value ∧
        Lineage.Nearest builtinTypes "bytestring" (·.local? .separate) value :=
  ⟨TagTable.build_builtinTypes, (TagTable.lookups_follow_full_chain
    TagTable.build_builtinTypes).2.1 "bytestring" (by decide) .separate⟩

end DocComments
