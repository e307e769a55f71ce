import Mathlib.Data.List.Induction
import Mathlib.Data.List.Forall2
import Mathlib.Data.List.Basic
import TranslitScheme.Proofs.Derivation.Merging

/-!
# Lists that repeat themselves

A list repeats another when it has the same elements in the same order, up to a relation, and
besides them, where repetition is allowed, only elements that came before. This is how a list of
tokens looks after part of the work that led to it was done twice.

Nothing that takes its elements one by one can tell the two lists apart by more than the relation
and the repetitions: `Repeats` is kept by appending, mapping, filtering and by `flatMap`, and the
distinct elements of two lists that repeat each other up to equality are the same.
-/

namespace TranslitScheme

variable {α β γ δ : Type}

/-- The second list has the elements of the first one and, when `again` allows it, repeats some of
them later on. -/
inductive Repeats (again : Prop) (same : α → β → Prop) : List α → List β → Prop where
  | nil : Repeats again same [] []
  | next {xs : List α} {ys : List β} {x : α} {y : β} :
    Repeats again same xs ys → same x y → Repeats again same (xs ++ [x]) (ys ++ [y])
  | again {xs : List α} {ys : List β} {x : α} {y : β} :
    again → Repeats again same xs ys → x ∈ xs → same x y → Repeats again same xs (ys ++ [y])

namespace Repeats

variable {again : Prop} {same : α → β → Prop} {other : γ → δ → Prop} {xs : List α} {ys : List β}

/-- A list repeats itself, without any repetition. -/
theorem refl {same : α → α → Prop} (hrefl : ∀ x, same x x) (xs : List α) :
    Repeats again same xs xs := by
  induction xs using List.reverseRecOn with
  | nil => exact .nil
  | append_singleton xs x ih => exact .next ih (hrefl x)

/-- Every element of the second list comes from one of the first. -/
theorem exists_left (h : Repeats again same xs ys) : ∀ y ∈ ys, ∃ x ∈ xs, same x y := by
  induction h with
  | nil => simp
  | @next xs ys x y _ hxy ih =>
    intro z hz
    rcases List.mem_append.mp hz with hold | hnew
    · obtain ⟨x', hx', hsame⟩ := ih z hold
      exact ⟨x', List.mem_append_left _ hx', hsame⟩
    · rw [List.mem_singleton.mp hnew]
      exact ⟨x, List.mem_append_right _ (List.mem_singleton_self x), hxy⟩
  | @again xs ys x y _ _ hx hxy ih =>
    intro z hz
    rcases List.mem_append.mp hz with hold | hnew
    · exact ih z hold
    · rw [List.mem_singleton.mp hnew]
      exact ⟨x, hx, hxy⟩

/-- Every element of the first list is in the second. -/
theorem exists_right (h : Repeats again same xs ys) : ∀ x ∈ xs, ∃ y ∈ ys, same x y := by
  induction h with
  | nil => simp
  | @next xs ys x y _ hxy ih =>
    intro z hz
    rcases List.mem_append.mp hz with hold | hnew
    · obtain ⟨y', hy', hsame⟩ := ih z hold
      exact ⟨y', List.mem_append_left _ hy', hsame⟩
    · rw [List.mem_singleton.mp hnew]
      exact ⟨y, List.mem_append_right _ (List.mem_singleton_self y), hxy⟩
  | again _ _ _ _ ih =>
    intro z hz
    obtain ⟨y', hy', hsame⟩ := ih z hz
    exact ⟨y', List.mem_append_left _ hy', hsame⟩

/-- Repetitions of what is there may be added at the end. -/
theorem extend (hagain : again) (h : Repeats again same xs ys) (zs : List β)
    (hzs : ∀ z ∈ zs, ∃ x ∈ xs, same x z) : Repeats again same xs (ys ++ zs) := by
  induction zs using List.reverseRecOn with
  | nil => rwa [List.append_nil]
  | append_singleton zs z ih =>
    obtain ⟨x, hx, hsame⟩ := hzs z (by simp)
    rw [← List.append_assoc]
    exact .again hagain (ih fun z' hz' => hzs z' (List.mem_append_left _ hz')) hx hsame

/-- Lists that repeat others part by part repeat them as a whole. -/
theorem append {xs' : List α} {ys' : List β} (h : Repeats again same xs ys)
    (h' : Repeats again same xs' ys') :
    Repeats again same (xs ++ xs') (ys ++ ys') := by
  induction h' with
  | nil => simpa using h
  | next _ hxy ih =>
    rw [← List.append_assoc, ← List.append_assoc]
    exact .next ih hxy
  | again hagain _ hx hxy ih =>
    rw [← List.append_assoc]
    exact .again hagain ih (List.mem_append_right _ hx) hxy

/-- A single pair of related elements. -/
theorem single {x : α} {y : β} (h : same x y) : Repeats again same [x] [y] := .next .nil h

/-- Lists that are related element by element repeat each other. -/
theorem of_forall₂ (h : List.Forall₂ same xs ys) : Repeats again same xs ys := by
  induction h with
  | nil => exact .nil
  | cons hxy _ ih => exact (single hxy).append ih

/-- A coarser relation, which allows at least the same repetitions, relates the same lists. -/
theorem imp {coarse : α → β → Prop} {anew : Prop} (hagain : again → anew)
    (himp : ∀ x y, same x y → coarse x y) (h : Repeats again same xs ys) :
    Repeats anew coarse xs ys := by
  induction h with
  | nil => exact .nil
  | next _ hxy ih => exact .next ih (himp _ _ hxy)
  | again hold _ hx hxy ih => exact .again (hagain hold) ih hx (himp _ _ hxy)

/-- Where nothing may be repeated, the lists are related element by element. -/
theorem forall₂ (hagain : ¬ again) (h : Repeats again same xs ys) : List.Forall₂ same xs ys := by
  induction h with
  | nil => exact .nil
  | next _ hxy ih => exact List.rel_append ih (.cons hxy .nil)
  | again hold => exact absurd hold hagain

/-- Replacing every element by a list keeps repetitions apart from new elements. -/
theorem flatMap {f : α → List γ} {g : β → List δ} (h : Repeats again same xs ys)
    (hfg : ∀ x ∈ xs, ∀ y, same x y → Repeats again other (f x) (g y)) :
    Repeats again other (xs.flatMap f) (ys.flatMap g) := by
  induction h with
  | nil => exact .nil
  | @next xs ys x y _ hxy ih =>
    rw [List.flatMap_append, List.flatMap_append, List.flatMap_singleton, List.flatMap_singleton]
    exact (ih fun z hz => hfg z (List.mem_append_left _ hz)).append
      (hfg x (List.mem_append_right _ (List.mem_singleton_self x)) y hxy)
  | @again xs ys x y hagain _ hx hxy ih =>
    rw [List.flatMap_append, List.flatMap_singleton]
    refine (ih hfg).extend hagain (g y) fun z hz => ?_
    obtain ⟨w, hw, hsame⟩ := (hfg x hx y hxy).exists_left z hz
    exact ⟨w, List.mem_flatMap.mpr ⟨x, hx, hw⟩, hsame⟩

/-- Mapping keeps repetitions. -/
theorem map {f : α → γ} {g : β → δ} (h : Repeats again same xs ys)
    (hfg : ∀ x ∈ xs, ∀ y, same x y → other (f x) (g y)) :
    Repeats again other (xs.map f) (ys.map g) := by
  rw [List.map_eq_flatMap, List.map_eq_flatMap]
  exact h.flatMap fun x hx y hxy => single (hfg x hx y hxy)

/-- Mapping to what may be absent keeps repetitions. -/
theorem filterMap {f : α → Option γ} {g : β → Option δ} (h : Repeats again same xs ys)
    (hfg : ∀ x ∈ xs, ∀ y, same x y → Option.Rel other (f x) (g y)) :
    Repeats again other (xs.filterMap f) (ys.filterMap g) := by
  rw [List.filterMap_eq_flatMap_toList, List.filterMap_eq_flatMap_toList]
  refine h.flatMap fun x hx y hxy => ?_
  have hrel := hfg x hx y hxy
  generalize f x = a, g y = b at hrel
  cases hrel with
  | some hsame => exact single hsame
  | none => exact .nil

/-- Filtering keeps repetitions when related elements pass alike. -/
theorem filter {p : α → Bool} {q : β → Bool} (h : Repeats again same xs ys)
    (hpq : ∀ x ∈ xs, ∀ y, same x y → p x = q y) :
    Repeats again same (xs.filter p) (ys.filter q) := by
  rw [← List.filterMap_eq_filter, ← List.filterMap_eq_filter]
  refine h.filterMap fun x hx y hxy => ?_
  rw [Option.guard, Option.guard, ← hpq x hx y hxy]
  split
  · exact .some hxy
  · exact .none

/-- Only the empty list is repeated by the empty list. -/
theorem eq_nil (h : Repeats again same xs []) : xs = [] := by
  refine List.eq_nil_iff_forall_not_mem.mpr fun x hx => ?_
  obtain ⟨y, hy, _⟩ := h.exists_right x hx
  simp at hy

/-- A list with a single element repeats only a list with a single element. -/
theorem eq_single {y : β} (h : Repeats again same xs [y]) : ∃ x, xs = [x] ∧ same x y := by
  generalize hys : [y] = ys at h
  cases h with
  | nil => simp at hys
  | @next xs ys x z hrest hxz =>
    cases ys with
    | nil =>
      obtain rfl : y = z := by simpa using hys
      rw [hrest.eq_nil]
      exact ⟨x, rfl, hxz⟩
    | cons _ rest => simp at hys
  | @again xs ys x z _ hrest hx _ =>
    cases ys with
    | nil =>
      rw [hrest.eq_nil] at hx
      simp at hx
    | cons _ rest => simp at hys

/-- Repetitions add no distinct elements and change no order. -/
theorem eraseDups_eq [DecidableEq α] {xs ys : List α} (h : Repeats again Eq xs ys) :
    ys.eraseDups = xs.eraseDups := by
  have hmem {xs ys : List α} (h : Repeats again Eq xs ys) (x : α) : x ∈ ys ↔ x ∈ xs := by
    constructor
    · intro hx
      obtain ⟨x', hx', rfl⟩ := h.exists_left x hx
      exact hx'
    · intro hx
      obtain ⟨y', hy', rfl⟩ := h.exists_right x hx
      exact hy'
  induction h with
  | nil => rfl
  | next hrest hxy ih =>
    rw [Template.eraseDups_append_singleton, Template.eraseDups_append_singleton, ih, hxy]
    exact if_congr (hmem hrest _) rfl rfl
  | again _ hrest hx hxy ih =>
    rw [Template.eraseDups_append_singleton, if_pos ((hmem hrest _).mpr (hxy ▸ hx)), ih]

end Repeats

end TranslitScheme
