import Mathlib.Data.List.Forall2
import Mathlib.Data.List.ReduceOption

/-!
# Loops over a list that may fail

A loop in `Option` or `Except` succeeds just when every turn of it does.
-/

namespace Exosuit.Lib.Traversal

universe u v w

variable {ε : Type u} {α : Type v} {β : Type w}

section

variable {R S : α → β → Prop} {l : List α} {l' : List β}

theorem exists_of_forall₂_right (h : List.Forall₂ R l l') {b : β} (hb : b ∈ l') : ∃ a ∈ l, R a b := by
  induction h with
  | nil => cases hb
  | cons hHead _ ih =>
    rcases List.mem_cons.mp hb with rfl | hRest
    · exact ⟨_, List.mem_cons_self, hHead⟩
    · obtain ⟨a, ha, hR⟩ := ih hRest
      exact ⟨a, List.mem_cons_of_mem _ ha, hR⟩

theorem forall₂_mem (h : List.Forall₂ R l l') (hImp : ∀ a b, a ∈ l → R a b → S a b) : List.Forall₂ S l l' := by
  induction h with
  | nil => exact .nil
  | cons hHead _ ih =>
    exact .cons (hImp _ _ List.mem_cons_self hHead) (ih fun a b ha => hImp a b (List.mem_cons_of_mem _ ha))

theorem map_eq_of_forall₂ {γ : Type u} {f : α → γ} {g : β → γ} (h : List.Forall₂ (fun a b => g b = f a) l l') :
    l'.map g = l.map f := by
  induction h with
  | nil => rfl
  | cons hHead _ ih => rw [List.map_cons, List.map_cons, hHead, ih]

end

theorem mapM_eq_some {f : α → Option β} {l : List α} {l' : List β} :
    l.mapM f = some l' ↔ List.Forall₂ (fun a b => f a = some b) l l' := by
  induction l generalizing l' with
  | nil =>
    rw [List.mapM_nil, List.forall₂_nil_left_iff]
    exact ⟨fun h => (Option.some.inj h).symm, fun h => congrArg some h.symm⟩
  | cons a l ih =>
    rw [List.mapM_cons, List.forall₂_cons_left_iff]
    constructor
    · intro h
      obtain ⟨b, hb, h⟩ := Option.bind_eq_some_iff.mp h
      obtain ⟨bs, hbs, h⟩ := Option.bind_eq_some_iff.mp h
      exact ⟨b, bs, hb, ih.mp hbs, (Option.some.inj h).symm⟩
    · rintro ⟨b, bs, hb, hbs, rfl⟩
      rw [hb, ih.mpr hbs]
      rfl

theorem mapM_eq_ok {f : α → Except ε β} {l : List α} {l' : List β} :
    l.mapM f = .ok l' ↔ List.Forall₂ (fun a b => f a = .ok b) l l' := by
  induction l generalizing l' with
  | nil =>
    rw [List.mapM_nil, List.forall₂_nil_left_iff]
    exact ⟨fun h => (Except.ok.inj h).symm, fun h => congrArg Except.ok h.symm⟩
  | cons a l ih =>
    rw [List.mapM_cons, List.forall₂_cons_left_iff]
    cases hHead : f a with
    | error e => exact iff_of_false nofun fun ⟨_, _, h, _⟩ => nomatch h
    | ok b =>
      cases hTail : l.mapM f with
      | error e =>
        refine iff_of_false nofun ?_
        rintro ⟨b', bs, -, hbs, -⟩
        rw [ih.mpr hbs] at hTail
        exact nomatch hTail
      | ok bs =>
        constructor
        · intro h
          exact ⟨b, bs, rfl, ih.mp hTail, (Except.ok.inj h).symm⟩
        · rintro ⟨b', bs', hb, hbs, rfl⟩
          rw [ih.mpr hbs] at hTail
          rw [← Except.ok.inj hb, Except.ok.inj hTail]
          rfl

theorem mapM_eq_ok_map {f : α → Except ε β} {g : α → β} {l : List α} (h : ∀ a ∈ l, f a = .ok (g a)) :
    l.mapM f = .ok (l.map g) := by
  rw [mapM_eq_ok, List.forall₂_map_right_iff]
  exact List.forall₂_same.mpr h

theorem forM_eq_ok {f : α → Except ε PUnit} {l : List α} : l.forM f = .ok ⟨⟩ ↔ ∀ a ∈ l, f a = .ok ⟨⟩ := by
  induction l with
  | nil => exact iff_of_true rfl nofun
  | cons a l ih =>
    change (f a >>= fun _ => l.forM f) = .ok ⟨⟩ ↔ _
    rw [List.forall_mem_cons, ← ih]
    cases hHead : f a with
    | error e => exact iff_of_false nofun fun h => nomatch h.1
    | ok => exact ⟨fun h => ⟨rfl, h⟩, And.right⟩

/-- Two lists with the same keys, entry by entry. -/
theorem map_fst_eq {κ : Type u} {R : α → β → Prop} {l : List (κ × α)} {l' : List (κ × β)}
    (h : List.Forall₂ (fun a b => b.1 = a.1 ∧ R a.2 b.2) l l') : l'.map Prod.fst = l.map Prod.fst := by
  induction h with
  | nil => rfl
  | cons hHead _ ih => rw [List.map_cons, List.map_cons, hHead.1, ih]

/-- In a list with one entry a key, an entry is found by its key. -/
theorem find_of_mem {κ : Type u} [BEq κ] [LawfulBEq κ] {l : List (κ × α)} {e : κ × α}
    (hNodup : (l.map Prod.fst).Nodup) (h : e ∈ l) : l.find? (fun e' => e'.1 == e.1) = some e := by
  induction l with
  | nil => cases h
  | cons first l ih =>
    rw [List.map_cons, List.nodup_cons] at hNodup
    rw [List.find?_cons]
    rcases List.mem_cons.mp h with rfl | hRest
    · rw [beq_self_eq_true]
    · have hNe : (first.1 == e.1) = false := by
        rw [beq_eq_false_iff_ne]
        intro hEq
        exact hNodup.1 (hEq ▸ List.mem_map_of_mem hRest)
      rw [hNe]
      exact ih hNodup.2 hRest

theorem reduceOption_map_ite (p : α → Bool) (f : α → β) (l : List α) :
    (l.map fun a => if p a then some (f a) else none).reduceOption = (l.filter p).map f := by
  induction l with
  | nil => rfl
  | cons a l ih =>
    rw [List.map_cons, List.filter_cons]
    cases p a with
    | true => rw [if_pos rfl, if_pos rfl, List.reduceOption_cons_of_some, ih, List.map_cons]
    | false =>
      rw [if_neg Bool.false_ne_true, if_neg Bool.false_ne_true, List.reduceOption_cons_of_none, ih]

end Exosuit.Lib.Traversal
