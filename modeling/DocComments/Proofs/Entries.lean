/-
This file proves how ordered maps answer after a change.

Altering a key changes the value of that key and of no other one. The keys keep their places; a
key that was not there goes to the end. So a map that has every key once keeps to that, and in
such a map the entries and the answers say the same, whatever the order of the entries is.
-/

import DocComments.Entries
import Mathlib.Data.List.Nodup
import Mathlib.Data.List.Perm.Basic

namespace DocComments.Entries

variable {κ α : Type}

/-! ### Entries and answers -/

theorem keys_cons (key : κ) (value : α) (entries : Entries κ α) :
    keys ((key, value) :: entries) = key :: keys entries := rfl

theorem mem_keys_of_mem {entries : Entries κ α} {key : κ} {value : α}
    (member : (key, value) ∈ entries) : key ∈ keys entries :=
  List.mem_map_of_mem member

variable [BEq κ] [LawfulBEq κ]

theorem get?_cons_self (entries : Entries κ α) (key : κ) (value : α) :
    get? ((key, value) :: entries) key = some value := by
  rw [get?, if_pos (beq_self_eq_true key)]

theorem get?_cons_of_ne (entries : Entries κ α) {key other : κ} (value : α)
    (different : other ≠ key) : get? ((other, value) :: entries) key = get? entries key := by
  rw [get?, if_neg (by rwa [beq_iff_eq])]

theorem mem_of_get? {entries : Entries κ α} {key : κ} {value : α}
    (found : get? entries key = some value) : (key, value) ∈ entries := by
  induction entries with
  | nil => cases found
  | cons entry rest inductionHypothesis =>
    obtain ⟨other, otherValue⟩ := entry
    by_cases same : other = key
    · subst same
      rw [get?_cons_self] at found
      rw [Option.some.inj found]
      exact List.mem_cons_self
    · rw [get?_cons_of_ne rest otherValue same] at found
      exact List.mem_cons_of_mem _ (inductionHypothesis found)

theorem get?_isSome_iff {entries : Entries κ α} {key : κ} :
    (get? entries key).isSome ↔ key ∈ keys entries := by
  induction entries with
  | nil => simp [get?, keys]
  | cons entry rest inductionHypothesis =>
    obtain ⟨other, otherValue⟩ := entry
    by_cases same : other = key
    · subst same
      simp [get?_cons_self, keys]
    · rw [get?_cons_of_ne rest otherValue same, inductionHypothesis]
      simp [keys, Ne.symm same]

theorem get?_eq_none_iff {entries : Entries κ α} {key : κ} :
    get? entries key = none ↔ key ∉ keys entries := by
  rw [← get?_isSome_iff, Option.not_isSome_iff_eq_none]

theorem exists_get?_of_mem_keys {entries : Entries κ α} {key : κ}
    (member : key ∈ keys entries) : ∃ value, get? entries key = some value :=
  Option.isSome_iff_exists.mp (get?_isSome_iff.mpr member)

theorem mem_keys_of_get? {entries : Entries κ α} {key : κ} {value : α}
    (found : get? entries key = some value) : key ∈ keys entries :=
  mem_keys_of_mem (mem_of_get? found)

/-- Where every key stands once, the entry of a key is the answer for it. -/
theorem get?_of_mem {entries : Entries κ α} (distinct : (keys entries).Nodup) {key : κ}
    {value : α} (member : (key, value) ∈ entries) : get? entries key = some value := by
  obtain ⟨found, answer⟩ := exists_get?_of_mem_keys (mem_keys_of_mem member)
  have same : ((key, found) : κ × α) = (key, value) :=
    List.inj_on_of_nodup_map distinct (mem_of_get? answer) member rfl
  rw [answer, (Prod.mk.inj same).2]

/-- The order of the entries does not matter for the answers. -/
theorem get?_eq_of_perm {first second : Entries κ α} (distinct : (keys first).Nodup)
    (reordered : first.Perm second) (key : κ) : get? first key = get? second key := by
  have distinctSecond : (keys second).Nodup := (reordered.map _).nodup_iff.mp distinct
  cases answer : get? second key with
  | none =>
    rw [get?_eq_none_iff] at answer ⊢
    exact fun member => answer ((reordered.map _).mem_iff.mp member)
  | some value => exact get?_of_mem distinct (reordered.mem_iff.mpr (mem_of_get? answer))

/-! ### Altering a key -/

theorem get?_alter_self (change : Option α → α) (entries : Entries κ α) (key : κ) :
    get? (alter change entries key) key = some (change (get? entries key)) := by
  induction entries with
  | nil => rw [alter, get?_cons_self, get?]
  | cons entry rest inductionHypothesis =>
    obtain ⟨other, value⟩ := entry
    by_cases same : other = key
    · subst same
      rw [alter, if_pos (beq_self_eq_true other), get?_cons_self, get?_cons_self]
    · rw [alter, if_neg (by rwa [beq_iff_eq]), get?_cons_of_ne _ value same,
        get?_cons_of_ne _ value same, inductionHypothesis]

theorem get?_alter_of_ne (change : Option α → α) (entries : Entries κ α) {key other : κ}
    (different : other ≠ key) : get? (alter change entries key) other = get? entries other := by
  induction entries with
  | nil => rw [alter, get?_cons_of_ne _ _ (Ne.symm different)]
  | cons entry rest inductionHypothesis =>
    obtain ⟨first, value⟩ := entry
    by_cases same : first = key
    · subst same
      rw [alter, if_pos (beq_self_eq_true first), get?_cons_of_ne _ _ (Ne.symm different),
        get?_cons_of_ne _ _ (Ne.symm different)]
    · rw [alter, if_neg (by rwa [beq_iff_eq]), get?, get?, inductionHypothesis]

theorem keys_alter (change : Option α → α) (entries : Entries κ α) (key : κ) :
    keys (alter change entries key) =
      if key ∈ keys entries then keys entries else keys entries ++ [key] := by
  induction entries with
  | nil => simp [alter, keys]
  | cons entry rest inductionHypothesis =>
    obtain ⟨other, value⟩ := entry
    by_cases same : other = key
    · subst same
      simp [alter, keys]
    · rw [alter, if_neg (by rwa [beq_iff_eq])]
      rw [keys_cons, keys_cons, inductionHypothesis]
      by_cases member : key ∈ keys rest
      · rw [if_pos member, if_pos (List.mem_cons_of_mem _ member)]
      · rw [if_neg member, if_neg (by simp [Ne.symm same, member]), List.cons_append]

/-- A key that is not there goes to the end with its new value. -/
theorem alter_of_notMem (change : Option α → α) {entries : Entries κ α} {key : κ}
    (missing : key ∉ keys entries) :
    alter change entries key = entries ++ [(key, change none)] := by
  induction entries with
  | nil => rfl
  | cons entry rest inductionHypothesis =>
    obtain ⟨other, value⟩ := entry
    obtain ⟨different, missingInRest⟩ := List.ne_and_not_mem_of_not_mem_cons missing
    rw [alter, if_neg (by rwa [beq_iff_eq, eq_comm]), inductionHypothesis missingInRest,
      List.cons_append]

theorem nodup_keys_alter (change : Option α → α) {entries : Entries κ α}
    (distinct : (keys entries).Nodup) (key : κ) : (keys (alter change entries key)).Nodup := by
  rw [keys_alter]
  split
  · exact distinct
  · rename_i fresh
    rw [← List.concat_eq_append]
    exact distinct.concat fresh

/-- An entry after a change was there before, or it is the changed one. -/
theorem mem_alter {change : Option α → α} {entries : Entries κ α} {key other : κ} {value : α}
    (member : (other, value) ∈ alter change entries key) :
    (other, value) ∈ entries ∨ other = key ∧ value = change (get? entries key) := by
  induction entries with
  | nil =>
    rw [alter, List.mem_singleton] at member
    exact Or.inr (Prod.mk.inj member)
  | cons entry rest inductionHypothesis =>
    obtain ⟨first, firstValue⟩ := entry
    by_cases same : first = key
    · subst same
      rw [alter, if_pos (beq_self_eq_true first)] at member
      rcases List.mem_cons.mp member with head | tail
      · rw [get?_cons_self]
        exact Or.inr (Prod.mk.inj head)
      · exact Or.inl (List.mem_cons_of_mem _ tail)
    · rw [alter, if_neg (by rwa [beq_iff_eq])] at member
      rw [get?_cons_of_ne _ _ same]
      rcases List.mem_cons.mp member with head | tail
      · exact Or.inl (head ▸ List.mem_cons_self)
      · exact (inductionHypothesis tail).imp_left (List.mem_cons_of_mem _)

/-- The order of first use after one more use. -/
theorem eraseDups_concat (keys : List κ) (key : κ) :
    (keys ++ [key]).eraseDups =
      if key ∈ keys.eraseDups then keys.eraseDups else keys.eraseDups ++ [key] := by
  rw [List.eraseDups_append]
  by_cases member : key ∈ keys
  · rw [if_pos (List.mem_eraseDups.mpr member)]
    simp [List.removeAll, member]
  · rw [if_neg (mt List.mem_eraseDups.mp member)]
    simp [List.removeAll, member, List.eraseDups_cons]

/-! ### Maps made of pairs -/

theorem nodup_keys_ofList (pairs : List (κ × α)) : (keys (ofList pairs)).Nodup := by
  have run : ∀ entries : Entries κ α, (keys entries).Nodup →
      (keys (pairs.foldl (fun entries pair => set entries pair.1 pair.2) entries)).Nodup := by
    induction pairs with
    | nil => exact fun _ distinct => distinct
    | cons pair pairs inductionHypothesis =>
      exact fun entries distinct => inductionHypothesis _ (nodup_keys_alter _ distinct pair.1)
  exact run [] List.nodup_nil

theorem mem_of_mem_ofList {pairs : List (κ × α)} {entry : κ × α}
    (member : entry ∈ ofList pairs) : entry ∈ pairs := by
  have run : ∀ entries : Entries κ α,
      entry ∈ pairs.foldl (fun entries pair => set entries pair.1 pair.2) entries →
        entry ∈ entries ∨ entry ∈ pairs := by
    clear member
    induction pairs with
    | nil => exact fun _ inside => Or.inl inside
    | cons pair pairs inductionHypothesis =>
      intro entries inside
      rcases inductionHypothesis _ inside with added | later
      · rcases mem_alter added with old | ⟨key, value⟩
        · exact Or.inl old
        · exact Or.inr (List.mem_cons.mpr (Or.inl (Prod.ext key value)))
      · exact Or.inr (List.mem_cons_of_mem _ later)
  exact (run [] member).resolve_left List.not_mem_nil

end DocComments.Entries
